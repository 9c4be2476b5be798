/-
  Every call of `send_all()` ends.

  The loop has only so much to run: `rank` counts the callbacks, and two for each call that may still
  be woken up.  `send_all_ends`: from any reachable state, once the socket has taken what is
  buffered, the loop comes to rest after that many callbacks, and all calls have ended.
-/
import EasyNetwork.Lib.Table
import EasyNetwork.WriteFlowRuns

namespace EasyNetwork

namespace WriteFlow

/-- A call that may still be woken up counts for the two callbacks of its waiter. -/
def Phase.rank : Phase → ℕ
  | .yielding _ _ => 2
  | .waiting _ .pending _ => 2
  | _ => 0

/-- How many callbacks the loop may still have to run. -/
def State.rank (s : State) : ℕ :=
  s.ready.length + ∑ n ∈ Finset.range s.calls, (s.phase n).rank

variable {s s' : State} {n call : ℕ} {data : Bytes}

/-- A call goes from one place to another. -/
theorem rank_setPhase (hcall : call < s.calls) (phase : Phase) :
    (s.setPhase call phase).rank + (s.phase call).rank = s.rank + phase.rank := by
  have hsum := Table.sum_update (Finset.mem_range.2 hcall) s.phase Phase.rank phase
  show s.ready.length + ∑ n ∈ Finset.range s.calls, (Function.update s.phase call phase n).rank + _ =
    s.ready.length + _ + _
  omega

/-- Only the calls that have been made are anywhere. -/
def Fresh (s : State) : Prop := ∀ n, s.calls ≤ n → s.phase n = .notCalled

theorem Fresh.lt (h : Fresh s) (hphase : s.phase call ≠ .notCalled) : call < s.calls := by
  by_contra hle
  exact hphase (h call (Nat.le_of_not_lt hle))

/-- A call is woken up: its two callbacks have been counted. -/
theorem rank_complete {waiter : Future} (hw : waiter ≠ .pending) (h : Fresh s) (call : ℕ) :
    (s.complete waiter call).rank ≤ s.rank ∧ Fresh (s.complete waiter call) := by
  unfold State.complete
  split
  · next data mustCancel hphase =>
    have hcall : call < s.calls := h.lt (by rw [hphase]; nofun)
    let woken : State :=
      { s with ready := s.ready ++ [Handle.removeWaiter call, Handle.step call] }
    have hset := rank_setPhase (s := woken) hcall (.waiting data waiter mustCancel)
    have hready : woken.rank = s.rank + 2 := by
      show List.length (_ ++ _) + _ = s.ready.length + _ + 2
      rw [List.length_append]
      exact Nat.add_right_comm _ _ _
    have hrank : Phase.rank (.waiting data waiter mustCancel) = 0 := by
      cases waiter <;> first | rfl | exact absurd rfl hw
    rw [hrank, hready, show woken.phase call = _ from hphase] at hset
    refine ⟨Nat.le_of_eq (Nat.add_right_cancel hset), fun n hn => ?_⟩
    have hne : n ≠ call := by
      rintro rfl
      exact absurd hcall (Nat.not_lt.2 hn)
    exact (Function.update_of_ne hne ..).trans (h n hn)
  · exact ⟨le_rfl, h⟩

theorem rank_completeAll {waiter : Future} (hw : waiter ≠ .pending) (h : Fresh s) :
    (s.completeAll waiter).rank ≤ s.rank := by
  unfold State.completeAll
  generalize s.flow.drainWaiters = waiters
  induction waiters generalizing s with
  | nil => exact le_rfl
  | cons call waiters ih =>
    obtain ⟨hle, hfresh⟩ := rank_complete hw h call
    exact (ih hfresh).trans hle

/-- Nothing is written and no call is made. -/
def Quiet (s s' : State) : Prop := s'.buffer = s.buffer ∧ s'.calls = s.calls

theorem quiet_completeAll {waiter : Future} (hw : waiter ≠ .pending) (s : State) :
    Quiet s (s.completeAll waiter) := by
  unfold Quiet
  rw [(woken_completeAll hw s).1.frame]
  exact ⟨rfl, rfl⟩

theorem rank_callConnectionLost (h : Fresh s) (exc : Option String) :
    (s.callConnectionLost exc).rank ≤ s.rank := by
  unfold State.callConnectionLost State.connectionLost
  split_ifs
  · exact le_rfl
  · exact rank_completeAll (s := { s with flow := _ }) nofun h

theorem quiet_callConnectionLost (s : State) (exc : Option String) :
    Quiet s (s.callConnectionLost exc) := by
  have hne : Future.exception exc ≠ .pending := nofun
  unfold State.callConnectionLost State.connectionLost
  split_ifs
  · exact ⟨rfl, rfl⟩
  · exact quiet_completeAll hne { s with flow := _ }

theorem quiet_maybeResumeProtocol (s : State) : Quiet s s.maybeResumeProtocol := by
  have hne : Future.result ≠ .pending := nofun
  unfold State.maybeResumeProtocol State.resumeWriting
  split_ifs
  · exact quiet_completeAll hne { s with protocolPaused := false, flow := _ }
  · exact ⟨rfl, rfl⟩

/-- A call goes on: it ends, or it waits to be woken up. -/
theorem rank_goOn (h : Fresh s) (call : ℕ) :
    (s.goOn call).rank ≤ s.rank ∧ Quiet s (s.goOn call) := by
  have hset : s.phase call ≠ .notCalled → ∀ phase : Phase, phase.rank ≤ (s.phase call).rank →
      (s.setPhase call phase).rank ≤ s.rank := fun hne phase hle => by
    have := rank_setPhase (h.lt hne) phase
    omega
  unfold State.goOn
  split
  · next data mustCancel hphase =>
    have hset := hset (by rw [hphase]; nofun)
    rw [hphase] at hset
    split_ifs
    · exact ⟨hset _ (Nat.zero_le _), rfl, rfl⟩
    · unfold State.drainOpen
      split_ifs
      · exact ⟨hset _ (Nat.zero_le _), rfl, rfl⟩
      · exact ⟨hset (.waiting data .pending false) le_rfl, rfl, rfl⟩
      · exact ⟨hset _ (Nat.zero_le _), rfl, rfl⟩
  · next data waiter mustCancel hphase =>
    have hset := hset (by rw [hphase]; nofun)
    split_ifs
    · exact ⟨hset _ (Nat.zero_le _), rfl, rfl⟩
    · cases waiter with
      | pending => exact ⟨le_rfl, rfl, rfl⟩
      | result => exact ⟨hset _ (Nat.zero_le _), rfl, rfl⟩
      | exception exc => exact ⟨hset _ (Nat.zero_le _), rfl, rfl⟩
      | cancelled => exact ⟨hset _ (Nat.zero_le _), rfl, rfl⟩
  · exact ⟨le_rfl, rfl, rfl⟩

/-- The loop runs a callback. -/
theorem rank_run (h : Fresh s) (hready : s.ready ≠ []) :
    ∃ s', step s .run = some s' ∧ s'.rank < s.rank ∧ Quiet s s' := by
  obtain ⟨handle, ready, hready⟩ := List.exists_cons_of_ne_nil hready
  have hpop : State.rank { s with ready } < s.rank := by
    show ready.length + _ < s.ready.length + _
    rw [hready, List.length_cons]
    exact Nat.add_lt_add_right (Nat.lt_succ_self _) _
  refine ⟨{ s with ready }.runHandle handle, ?_, ?_⟩
  · unfold step
    dsimp only
    rw [hready]
  · cases handle with
    | connectionLost exc =>
      exact ⟨(rank_callConnectionLost (s := { s with ready }) h exc).trans_lt hpop,
        quiet_callConnectionLost _ exc⟩
    | removeWaiter call => exact ⟨hpop, rfl, rfl⟩
    | step call => exact (rank_goOn (s := { s with ready }) h call).imp_left (·.trans_lt hpop)

/-- The loop comes to rest. -/
theorem Inv.rests (h : Inv s) : ∃ runs s', runs ≤ s.rank ∧
    Trans.run step s (List.replicate runs .run) = some s' ∧ Inv s' ∧ s'.ready = [] ∧ Quiet s s' := by
  induction hrank : s.rank using Nat.strong_induction_on generalizing s with
  | _ rank ih =>
  by_cases hready : s.ready = []
  · exact ⟨0, s, Nat.zero_le _, rfl, h, hready, rfl, rfl⟩
  · obtain ⟨m, hstep, hlt, hbuffer, hcalls⟩ := rank_run h.calls.fresh hready
    obtain ⟨runs, s', hle, hrun, hinv, hnone, hbuffer', hcalls'⟩ :=
      ih m.rank (hrank ▸ hlt) (step_inv h hstep) rfl
    refine ⟨runs + 1, s', by omega, ?_, hinv, hnone, hbuffer'.trans hbuffer, hcalls'.trans hcalls⟩
    rw [List.replicate_succ]
    exact Trans.run_cons_iff.2 ⟨m, hstep, hrun⟩

/-- The socket takes all that is buffered. -/
theorem Inv.flushes (h : Inv s) (hbuffer : s.buffer ≠ []) :
    ∃ s', step s (.writeReady (.takes s.buffer.length)) = some s' ∧ Inv s' ∧ s'.buffer = [] ∧
      s'.calls = s.calls := by
  have hsocket : s.noSocket = false := h.transport.noSocket.trans
    (Bool.eq_false_iff.2 fun hl => hbuffer (h.transport.lost hl).2)
  have hstep : step s (.writeReady (.takes s.buffer.length)) =
      some (s.writeReady (.takes s.buffer.length)) := if_pos ⟨hbuffer, hsocket⟩
  refine ⟨_, hstep, step_inv h hstep, ?_⟩
  let taken : State := { s with
    sent := s.sent ++ s.buffer.take s.buffer.length, buffer := s.buffer.drop s.buffer.length }
  obtain ⟨hnone, hcalls⟩ := quiet_maybeResumeProtocol taken
  rw [show taken.buffer = [] from List.drop_length] at hnone
  change _ = s.calls at hcalls
  unfold State.writeReady
  dsimp only
  split_ifs
  · exact ⟨hnone, hcalls⟩
  · obtain ⟨hbuffer', hcalls'⟩ := quiet_callConnectionLost taken.maybeResumeProtocol none
    exact ⟨hbuffer'.trans hnone, hcalls'.trans hcalls⟩
  · exact ⟨hnone, hcalls⟩
  · exact ⟨hnone, hcalls⟩

/-- **No call of `send_all` is forgotten.**  From any state that an interleaving reaches, as soon as
the socket takes what is buffered, the loop comes to rest after a number of callbacks that is bounded
beforehand, and all the calls that have been made have ended. -/
theorem send_all_ends {as : List Action} {s : State} (h : Trans.run step {} as = some s) :
    ∃ m runs s', (if s.buffer = [] then m = s
        else step s (.writeReady (.takes s.buffer.length)) = some m) ∧ runs ≤ m.rank ∧
      Trans.run step m (List.replicate runs .run) = some s' ∧ s'.ready = [] ∧ s'.calls = s.calls ∧
      ∀ n < s.calls, ∃ data outcome, s'.phase n = .ended data outcome := by
  have hinv := run_inv h
  have hrest : ∀ m, Inv m → m.buffer = [] → m.calls = s.calls → ∃ runs s', runs ≤ m.rank ∧
      Trans.run step m (List.replicate runs .run) = some s' ∧ s'.ready = [] ∧ s'.calls = s.calls ∧
      ∀ n < s.calls, ∃ data outcome, s'.phase n = .ended data outcome := by
    intro m hm hbuffer hcalls
    obtain ⟨runs, s', hle, hrun, hinv', hready, hbuffer', hcalls'⟩ := hm.rests
    refine ⟨runs, s', hle, hrun, hready, hcalls'.trans hcalls, fun n hn => ?_⟩
    refine hinv'.at_rest hready (hbuffer'.trans hbuffer) ?_
    rw [hcalls', hcalls]
    exact hn
  by_cases hbuffer : s.buffer = []
  · obtain ⟨runs, s', hended⟩ := hrest s hinv hbuffer rfl
    exact ⟨s, runs, s', by rw [if_pos hbuffer], hended⟩
  · obtain ⟨m, hstep, hm, hnone, hcalls⟩ := hinv.flushes hbuffer
    obtain ⟨runs, s', hended⟩ := hrest m hm hnone hcalls
    exact ⟨m, runs, s', by rw [if_neg hbuffer]; exact hstep, hended⟩

/-- A call that waits when the connection is reset. -/
theorem send_all_ends_reset : ∃ s, Trans.run step {}
      [.sendAll [1, 2] (.takes 1), .fatalError "ECONNRESET"] = some s ∧
    ∃ m runs s', (if s.buffer = [] then m = s
        else step s (.writeReady (.takes s.buffer.length)) = some m) ∧ runs ≤ m.rank ∧
      Trans.run step m (List.replicate runs .run) = some s' ∧ s'.ready = [] ∧ s'.calls = s.calls ∧
      ∀ n < s.calls, ∃ data outcome, s'.phase n = .ended data outcome := by
  obtain ⟨s, hs⟩ : ∃ s, Trans.run step {}
      [.sendAll [1, 2] (.takes 1), .fatalError "ECONNRESET"] = some s :=
    Option.isSome_iff_exists.1 (by decide)
  exact ⟨s, hs, send_all_ends hs⟩

end WriteFlow

end EasyNetwork
