/-
  No call of a standalone server waits for ever.

  A step that is not a new call takes one of the calls nearer to its end (`rank_step`).
  `standalone_server_ends`: there are only so many of these steps, and while a call has not ended, one
  of them is possible that does not depend on a timeout, a failure, or the end of a server that
  serves.
-/
import EasyNetwork.StandaloneServerRuns

namespace EasyNetwork

namespace StandaloneServer

open Table

/-- How far a call is from its end. -/
def Phase.rank : Phase → ℕ
  | .notCalled | .ended _ _ => 0
  | .waitShutdown _ => 1
  | .failing | .reacquire => 2
  | .draining => 4
  | .serving | .inPortal _ => 5
  | .starting => 7
  | .waitBootstrap _ => 8
  | .waitClose _ => 9

def State.rank (s : State) : ℕ :=
  ∑ n ∈ Finset.range s.calls, (s.phase n).rank + s.settingUp.toNat

def Action.isCall : Action → Bool
  | .call _ => true
  | _ => false

/-- The step does not depend on a timeout, a failure, or the end of a server that serves. -/
def Action.isForced : Action → Bool
  | .acquireClose _ | .acquireBootstrap _ | .up _ | .drained _ | .portalDone _ .ok | .finish _ false
  | .wakes _ => true
  | _ => false

variable {s s' : State} {n call bound : ℕ} {method : Method}

/-! ## The rank -/

/-- The call goes to a place of at most this rank. -/
def Goes (s s' : State) (call bound : ℕ) : Prop :=
  ∃ q : Phase, s'.phase = Function.update s.phase call q ∧ q.rank ≤ bound ∧ s'.calls = s.calls

theorem Goes.rank_lt (hg : Goes s s' call bound) (h : Inv s) (hne : s.phase call ≠ .notCalled)
    (hlt : bound + s'.settingUp.toNat < (s.phase call).rank + s.settingUp.toNat) :
    s'.rank < s.rank := by
  obtain ⟨q, hphase, hq, hcalls⟩ := hg
  have hcall : call < s.calls := by
    by_contra hle
    exact hne ((h.fresh call).2 (Nat.le_of_not_lt hle))
  have hsum := sum_update (Finset.mem_range.2 hcall) s.phase Phase.rank q
  unfold State.rank
  rw [hphase, hcalls]
  omega

theorem goes_leave (s : State) (call : ℕ) (outcome : Outcome) (method : Method) :
    Goes s (s.leave call outcome method) call 1 ∧
      (s.leave call outcome method).settingUp = s.settingUp := by
  cases method with
  | serveForever => exact ⟨⟨_, rfl, Nat.zero_le _, rfl⟩, rfl⟩
  | shutdown timeout =>
    unfold State.leave
    dsimp only
    split_ifs
    · exact ⟨⟨_, rfl, le_rfl, rfl⟩, rfl⟩
    · exact ⟨⟨_, rfl, Nat.zero_le _, rfl⟩, rfl⟩
  | serverClose => exact ⟨⟨_, rfl, Nat.zero_le _, rfl⟩, rfl⟩
  | isServing => exact ⟨⟨_, rfl, Nat.zero_le _, rfl⟩, rfl⟩

theorem Goes.mono {bound' : ℕ} (hg : Goes s s' call bound) (hle : bound ≤ bound') :
    Goes s s' call bound' := by
  obtain ⟨q, hphase, hq, hcalls⟩ := hg
  exact ⟨q, hphase, hq.trans hle, hcalls⟩

theorem goes_usePortal (s : State) (call : ℕ) (method : Method) :
    Goes s (s.usePortal call method) call 5 ∧
      (s.usePortal call method).settingUp = s.settingUp := by
  unfold State.usePortal
  dsimp only
  split_ifs
  · exact ⟨⟨_, rfl, le_rfl, rfl⟩, rfl⟩
  · exact (goes_leave { s with found := _ } call .returned method).imp (·.mono (by omega)) id
  · exact (goes_leave s call .returned method).imp (·.mono (by omega)) id

theorem goes_acquiredBootstrap (s : State) (call : ℕ) (method : Method) :
    Goes s (s.acquiredBootstrap call method) call 7 ∧
      (s.acquiredBootstrap call method).settingUp = s.settingUp := by
  cases method with
  | serveForever =>
    unfold State.acquiredBootstrap
    dsimp only
    split_ifs
    · exact ⟨⟨_, rfl, le_rfl, rfl⟩, rfl⟩
    · exact ⟨⟨_, rfl, Nat.zero_le _, rfl⟩, rfl⟩
  | shutdown timeout => exact (goes_usePortal s call _).imp (·.mono (by omega)) id
  | serverClose => exact (goes_usePortal s call _).imp (·.mono (by omega)) id
  | isServing => exact (goes_usePortal s call _).imp (·.mono (by omega)) id

theorem goes_portalDone (s : State) (call : ℕ) (method : Method) (result : Result) :
    Goes s (s.portalDone call method result) call 1 ∧
      (s.portalDone call method result).settingUp = s.settingUp := by
  unfold State.portalDone
  cases result with
  | ok =>
    dsimp only
    split_ifs
    · exact goes_leave { s with bootstrapLock := none, closed := true } call .returned method
    · exact goes_leave { s with bootstrapLock := none } call .returned method
  | suppressed =>
    dsimp only
    split_ifs
    · exact goes_leave { s with bootstrapLock := none, refused := true } call .returned method
    · exact goes_leave { s with bootstrapLock := none } call .returned method
  | raises => exact goes_leave { s with bootstrapLock := none } call .raised method

/-- **Every step that is not a new call lowers the rank.** -/
theorem rank_step (h : Inv s) {a : Action} (ha : a.isCall = false) (hstep : step s a = some s') :
    s'.rank < s.rank := by
  cases a with
  | call method => cases ha
  | acquireClose call =>
    unfold step at hstep
    dsimp only at hstep
    split at hstep
    · next method hp =>
      obtain ⟨-, hstep⟩ := Option.ite_none_right_eq_some.1 hstep
      obtain rfl := Option.some.inj hstep
      have hg : Goes s (s.acquiredClose call method) call 8 ∧
          (s.acquiredClose call method).settingUp = s.settingUp := by
        unfold State.acquiredClose
        split_ifs
        · exact ⟨⟨_, rfl, Nat.zero_le _, rfl⟩, rfl⟩
        · exact ⟨⟨_, rfl, le_rfl, rfl⟩, rfl⟩
      refine hg.1.rank_lt h (by rw [hp]; nofun) ?_
      rw [hg.2, hp]
      exact Nat.add_lt_add_right (Nat.lt_succ_self 8) _
    · cases hstep
  | acquireBootstrap call =>
    unfold step at hstep
    dsimp only at hstep
    split at hstep
    · next method hp =>
      obtain ⟨-, hstep⟩ := Option.ite_none_right_eq_some.1 hstep
      obtain rfl := Option.some.inj hstep
      obtain ⟨hg, hsetting⟩ := goes_acquiredBootstrap s call method
      refine hg.rank_lt h (by rw [hp]; nofun) ?_
      rw [hsetting, hp]
      exact Nat.add_lt_add_right (Nat.lt_succ_self 7) _
    · cases hstep
  | up call =>
    obtain ⟨hp, hstep⟩ := Option.ite_none_right_eq_some.1 hstep
    obtain rfl := Option.some.inj hstep
    have hg : Goes s (s.up call) call 5 := ⟨.serving, rfl, le_rfl, rfl⟩
    refine hg.rank_lt h (by rw [hp]; nofun) ?_
    rw [hp]
    show 5 + 1 < 7 + _
    omega
  | fails call activated =>
    obtain ⟨hp, hstep⟩ := Option.ite_none_right_eq_some.1 hstep
    obtain rfl := Option.some.inj hstep
    have hg : Goes s (State.setPhase { s with server := if activated then some call else none } call
        .failing) call 2 := ⟨.failing, rfl, le_rfl, rfl⟩
    refine hg.rank_lt h (by rw [hp]; nofun) ?_
    rw [hp]
    exact Nat.add_lt_add_right (by decide : 2 < 7) _
  | isUp call =>
    obtain ⟨⟨-, hsetting⟩, hstep⟩ := Option.ite_none_right_eq_some.1 hstep
    obtain rfl := Option.some.inj hstep
    unfold State.rank
    rw [hsetting]
    exact Nat.lt_succ_self _
  | asyncEnds call =>
    obtain ⟨hp, hstep⟩ := Option.ite_none_right_eq_some.1 hstep
    obtain rfl := Option.some.inj hstep
    have hg : Goes s (State.setPhase { s with portalLoop := false, settingUp := false } call
        .draining) call 4 := ⟨.draining, rfl, le_rfl, rfl⟩
    refine hg.rank_lt h (by rw [hp]; nofun) ?_
    rw [hp]
    show 4 + 0 < 5 + _
    omega
  | drained call =>
    obtain ⟨⟨hp, -⟩, hstep⟩ := Option.ite_none_right_eq_some.1 hstep
    obtain rfl := Option.some.inj hstep
    have hg : Goes s (s.setPhase call .reacquire) call 2 := ⟨.reacquire, rfl, le_rfl, rfl⟩
    refine hg.rank_lt h (by rw [hp]; nofun) ?_
    rw [hp]
    exact Nat.add_lt_add_right (by decide : 2 < 4) _
  | portalDone call result =>
    unfold step at hstep
    dsimp only at hstep
    split at hstep
    · next method hp =>
      obtain ⟨-, hstep⟩ := Option.ite_none_right_eq_some.1 hstep
      obtain rfl := Option.some.inj hstep
      obtain ⟨hg, hsetting⟩ := goes_portalDone s call method result
      refine hg.rank_lt h (by rw [hp]; nofun) ?_
      rw [hsetting, hp]
      exact Nat.add_lt_add_right (by decide : 1 < 5) _
    · cases hstep
  | finish call raises =>
    obtain ⟨⟨hp, -⟩, hstep⟩ := Option.ite_none_right_eq_some.1 hstep
    obtain rfl := Option.some.inj hstep
    have hg : Goes s (s.finish call (if raises then .raised else .returned)) call 0 :=
      ⟨_, rfl, le_rfl, rfl⟩
    refine hg.rank_lt h (by rcases hp with hp | hp <;> rw [hp] <;> nofun) ?_
    refine Nat.add_lt_add_right ?_ _
    rcases hp with hp | hp <;> rw [hp] <;> decide
  | wakes call =>
    unfold step at hstep
    dsimp only at hstep
    split at hstep
    · next timeout hp =>
      obtain ⟨-, hstep⟩ := Option.ite_none_right_eq_some.1 hstep
      obtain rfl := Option.some.inj hstep
      have hg : Goes s (s.setPhase call (.ended (.shutdown timeout) .returned)) call 0 :=
        ⟨_, rfl, le_rfl, rfl⟩
      refine hg.rank_lt h (by rw [hp]; nofun) ?_
      rw [hp]
      exact Nat.add_lt_add_right Nat.zero_lt_one _
    · cases hstep
  | timesOut call =>
    unfold step at hstep
    dsimp only at hstep
    split at hstep
    · next hp =>
      obtain rfl := Option.some.inj hstep
      have hg : Goes s (s.setPhase call (.ended (.shutdown true) .returned)) call 0 :=
        ⟨_, rfl, le_rfl, rfl⟩
      refine hg.rank_lt h (by rw [hp]; nofun) ?_
      rw [hp]
      exact Nat.add_lt_add_right Nat.zero_lt_one _
    · cases hstep

theorem rank_run (h : Inv s) {bs : List Action} (hbs : ∀ b ∈ bs, b.isCall = false)
    (hrun : Trans.run step s bs = some s') : bs.length + s'.rank ≤ s.rank :=
  Trans.length_add_rank_le (P := fun b => b.isCall = false) State.rank
    (fun _ _ _ => step_inv) (fun _ _ _ h hb => rank_step h hb) h hbs hrun

/-! ## What is possible -/

/-- A step is possible that does not depend on the environment. -/
def CanGoOn (s : State) : Prop := ∃ a s', a.isForced = true ∧ step s a = some s'

/-- A server that is running goes on, unless it serves. -/
theorem canGoOn_of_isRun (h : Inv s) (hserving : ∀ r, s.phase r ≠ .serving) {r : ℕ}
    (hr : (s.phase r).isRun = true) : CanGoOn s := by
  obtain ⟨run, hrun, -⟩ := h.run
  have hloop : s.portalLoop = false := Bool.eq_false_iff.2 fun hl => by
    obtain ⟨r, hr⟩ := h.loop.1 hl
    exact hserving r hr
  cases hphase : s.phase r with
  | starting => exact ⟨.up r, _, rfl, if_pos hphase⟩
  | failing =>
    have hlock := (h.bootstrapLock r).2 (by rw [hphase]; rfl)
    exact ⟨.finish r false, _, rfl, if_pos ⟨.inl hphase, .inr hlock⟩⟩
  | serving => exact absurd hphase (hserving r)
  | draining =>
    by_cases hin : ∃ n method, s.phase n = .inPortal method
    · -- a coroutine of the portal ends: even the `shutdown()` that waits for the end of the server
      obtain ⟨n, method, hin⟩ := hin
      have hmay : s.mayEnd method .ok = true := by
        cases method with
        | shutdown timeout =>
          cases timeout with
          | false => exact congrArg Bool.not hloop
          | true => rfl
        | _ => rfl
      refine ⟨.portalDone n .ok, s.portalDone n method .ok, rfl, ?_⟩
      unfold step
      dsimp only
      rw [hin]
      exact if_pos hmay
    · refine ⟨.drained r, _, rfl, if_pos ⟨hphase, List.all_eq_true.2 fun n _ => ?_⟩⟩
      split
      · next method hn => exact absurd ⟨n, method, hn⟩ hin
      · rfl
  | reacquire =>
    have hfree : s.bootstrapLock = none := by
      cases hlock : s.bootstrapLock with
      | none => rfl
      | some m =>
        -- it would be another server that is running, or a call that waits for this one
        have hm := (h.bootstrapLock m).1 hlock
        cases hpm : s.phase m with
        | inPortal method =>
          obtain ⟨-, r', -, hlive⟩ := (h.call m).inPortal method hpm
          have heq : r' = r :=
            hrun.unique (Phase.isRun_of_isOpen (Phase.isOpen_of_isLive hlive)) hr
          rw [heq, hphase] at hlive
          cases hlive
        | starting =>
          have heq : m = r := hrun.unique (by rw [hpm]; rfl) hr
          rw [heq, hphase] at hpm
          cases hpm
        | failing =>
          have heq : m = r := hrun.unique (by rw [hpm]; rfl) hr
          rw [heq, hphase] at hpm
          cases hpm
        | _ =>
          rw [hpm] at hm
          cases hm
    exact ⟨.finish r false, _, rfl, if_pos ⟨.inr hphase, .inl hfree⟩⟩
  | _ =>
    rw [hphase] at hr
    cases hr

/-- No server is running: the lock of the bootstrap is free. -/
theorem bootstrapLock_none (h : Inv s) (hrun : ∀ r, (s.phase r).isRun = false) :
    s.bootstrapLock = none := by
  cases hlock : s.bootstrapLock with
  | none => rfl
  | some m =>
    have hm := (h.bootstrapLock m).1 hlock
    have hrm := hrun m
    cases hpm : s.phase m with
    | inPortal method =>
      obtain ⟨-, r, -, hlive⟩ := (h.call m).inPortal method hpm
      have hr := hrun r
      rw [Phase.isRun_of_isOpen (Phase.isOpen_of_isLive hlive)] at hr
      cases hr
    | starting =>
      rw [hpm] at hrm
      cases hrm
    | failing =>
      rw [hpm] at hrm
      cases hrm
    | _ =>
      rw [hpm] at hm
      cases hm

theorem canGoOn_of_waitBootstrap (hfree : s.bootstrapLock = none)
    (hp : s.phase n = .waitBootstrap method) : CanGoOn s := by
  refine ⟨.acquireBootstrap n, s.acquiredBootstrap n method, rfl, ?_⟩
  unfold step
  dsimp only
  rw [hp]
  exact if_pos hfree

/-- Without a running server, every call goes on. -/
theorem canGoOn_of_not_isRun (h : Inv s) (hrun : ∀ r, (s.phase r).isRun = false) (hn : n < s.calls)
    (hended : ∀ method outcome, s.phase n ≠ .ended method outcome) : CanGoOn s := by
  have hfree := bootstrapLock_none h hrun
  obtain ⟨run, hown, hiff⟩ := h.run
  have hshutdown : s.isShutdown = true := hiff.2 (by
    cases run with
    | none => rfl
    | some r =>
      have hr : (s.phase r).isRun = true := (hown r).1 rfl
      rw [hrun r] at hr
      cases hr)
  have hnot := hrun n
  cases hphase : s.phase n with
  | notCalled => exact absurd hn (Nat.not_lt.2 ((h.fresh n).1 hphase))
  | waitClose method =>
    cases hlock : s.closeLock with
    | none =>
      refine ⟨.acquireClose n, s.acquiredClose n method, rfl, ?_⟩
      unfold step
      dsimp only
      rw [hphase]
      exact if_pos hlock
    | some m =>
      have hm := (h.closeLock m).1 hlock
      have hrm := hrun m
      cases hpm : s.phase m with
      | waitBootstrap method => exact canGoOn_of_waitBootstrap hfree hpm
      | inPortal method =>
        have := (h.bootstrapLock m).2 (by rw [hpm]; rfl)
        rw [hfree] at this
        cases this
      | starting =>
        rw [hpm] at hrm
        cases hrm
      | failing =>
        rw [hpm] at hrm
        cases hrm
      | _ =>
        rw [hpm] at hm
        cases hm
  | waitBootstrap method => exact canGoOn_of_waitBootstrap hfree hphase
  | inPortal method =>
    have := (h.bootstrapLock n).2 (by rw [hphase]; rfl)
    rw [hfree] at this
    cases this
  | waitShutdown timeout =>
    refine ⟨.wakes n, s.setPhase n (.ended (.shutdown timeout) .returned), rfl, ?_⟩
    unfold step
    dsimp only
    rw [hphase]
    exact if_pos hshutdown
  | ended method outcome => exact absurd hphase (hended method outcome)
  | _ =>
    rw [hphase] at hnot
    cases hnot

/-- **No deadlock.**  In any state that an interleaving of calls reaches, there are at most `rank`
steps until the next call is made, whatever their order; and as long as a call has not ended, and no
server serves, one of them is possible that depends neither on a timeout nor on a failure. -/
theorem standalone_server_ends {as : List Action} {s : State} (h : Trans.run step {} as = some s) :
    (∀ bs s', (∀ b ∈ bs, b.isCall = false) → Trans.run step s bs = some s' →
      bs.length + s'.rank ≤ s.rank) ∧
    ((∀ r, s.phase r ≠ .serving) →
      (∃ n < s.calls, ∀ method outcome, s.phase n ≠ .ended method outcome) →
      ∃ a s', a.isForced = true ∧ step s a = some s') := by
  have hinv := run_inv h
  refine ⟨fun bs s' hbs hrun => rank_run hinv hbs hrun, fun hserving hn => ?_⟩
  obtain ⟨n, hn, hended⟩ := hn
  by_cases hrun : ∃ r, (s.phase r).isRun = true
  · obtain ⟨r, hr⟩ := hrun
    exact canGoOn_of_isRun hinv hserving hr
  · exact canGoOn_of_not_isRun hinv (fun r => Bool.eq_false_iff.2 (not_exists.1 hrun r)) hn hended

/-- A `shutdown()` waits for the lock of the bootstrap, which another one holds while the server
    ends. -/
theorem standalone_server_ends_shutdown : ∃ s, Trans.run step {}
      [.call .serveForever, .acquireClose 0, .acquireBootstrap 0, .up 0, .call (.shutdown false),
        .call (.shutdown true), .acquireBootstrap 1, .asyncEnds 0] = some s ∧
    s.phase 1 = .inPortal (.shutdown false) ∧ s.phase 2 = .waitBootstrap (.shutdown true) ∧
    ∃ a s', a.isForced = true ∧ step s a = some s' := by
  obtain ⟨s, hs⟩ : ∃ s, Trans.run step {}
      [.call .serveForever, .acquireClose 0, .acquireBootstrap 0, .up 0, .call (.shutdown false),
        .call (.shutdown true), .acquireBootstrap 1, .asyncEnds 0] = some s :=
    Option.isSome_iff_exists.1 (by decide)
  have hview : some (s.phase 0, s.phase 1, s.phase 2, s.calls) =
      some (.draining, .inPortal (.shutdown false), .waitBootstrap (.shutdown true), 3) := by
    rw [← Option.map_some (f := fun s : State => (s.phase 0, s.phase 1, s.phase 2, s.calls)), ← hs]
    decide
  simp only [Option.some.injEq, Prod.mk.injEq] at hview
  obtain ⟨h0, h1, h2, hcalls⟩ := hview
  refine ⟨s, hs, h1, h2, (standalone_server_ends hs).2 (fun r hr => ?_) ⟨1, by omega, ?_⟩⟩
  · obtain ⟨run, hrun, -⟩ := (run_inv hs).run
    have heq : r = 0 := hrun.unique (by rw [hr]; rfl) (by rw [h0]; rfl)
    rw [heq, h0] at hr
    cases hr
  · rw [h1]
    nofun

end StandaloneServer

end EasyNetwork
