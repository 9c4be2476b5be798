/-
  What the threads of a standalone server may rely on.

  * `Inv`: who holds the locks and who runs the server, as the place of each call says (`Table.Owns`),
    and what is known of a call where it is (`CallInv`).
  * `Moves`: what a step of one call leaves to the others; `Inv.side`: the steps of the calls that do
    not run the server.
  * `standalone_server_safe`: there is one server at a time, `shutdown()` returns after the end of the
    one that it has found, and after `server_close()` no other one is started.
  * `standalone_server_ends`: no call waits for ever, unless the server serves for ever.
-/
import EasyNetwork.Lib.Table
import EasyNetwork.StandaloneServer

namespace EasyNetwork

namespace StandaloneServer

open Table

namespace Phase

/-- The lock of `server_close()` is held. -/
def holdsClose : Phase → Bool
  | .waitBootstrap .serveForever | .waitBootstrap .serverClose => true
  | .starting | .failing => true
  | .inPortal .serverClose => true
  | _ => false

/-- The lock of the bootstrap is held. -/
def holdsBootstrap : Phase → Bool
  | .starting | .failing | .inPortal _ => true
  | _ => false

/-- The server is running. -/
def isRun : Phase → Bool
  | .starting | .failing | .serving | .draining | .reacquire => true
  | _ => false

/-- The portal is that of this call. -/
def isOpen : Phase → Bool
  | .serving | .draining | .reacquire => true
  | _ => false

/-- The event loop runs the coroutines of the portal. -/
def isLive : Phase → Bool
  | .serving | .draining => true
  | _ => false

/-- `serve_forever()` has ended. -/
def isOver : Phase → Bool
  | .ended .serveForever _ => true
  | _ => false

/-- Nothing has to be known of the call. -/
def isPlain : Phase → Bool
  | .notCalled | .waitClose _ | .starting | .inPortal _ => false
  | .waitBootstrap method => method != .serveForever
  | .ended method outcome =>
    outcome != .returned || (method != .shutdown false && method != .serverClose)
  | _ => true

theorem isRun_of_isOpen {p : Phase} (h : p.isOpen = true) : p.isRun = true := by
  cases p <;> first | rfl | cases h

theorem isOpen_of_isLive {p : Phase} (h : p.isLive = true) : p.isOpen = true := by
  cases p <;> first | rfl | cases h

end Phase

/-- What is known of a call, in the place `p`. -/
structure CallInv (s : State) (call : ℕ) (p : Phase) : Prop where
  waitClose : ∀ method, p = .waitClose method → method = .serveForever ∨ method = .serverClose
  opens : p = .waitBootstrap .serveForever ∨ p = .starting → s.isClosed = false
  inPortal : ∀ method, p = .inPortal method → method ≠ .serveForever ∧
    ∃ r, s.found call = some r ∧ (s.phase r).isLive = true
  shutdown : p = .ended (.shutdown false) .returned →
    ∀ r, s.found call = some r → (s.phase r).isOver = true
  serverClose : p = .ended .serverClose .returned → s.isClosed = true ∧
    ∀ r, s.phase r = .serving → s.closed = true ∨ s.refused = true

structure Inv (s : State) : Prop where
  closeLock : Owns s.closeLock (fun p : Phase => p.holdsClose = true) s.phase
  bootstrapLock : Owns s.bootstrapLock (fun p : Phase => p.holdsBootstrap = true) s.phase
  run : ∃ run, Owns run (fun p : Phase => p.isRun = true) s.phase ∧
    (s.isShutdown = true ↔ run = none)
  portal : Owns s.threadsPortal (fun p : Phase => p.isOpen = true) s.phase
  server : ∀ r, s.threadsPortal = some r → s.server = some r
  loop : s.portalLoop = true ↔ ∃ r, s.phase r = .serving
  found : ∀ n r, s.found n = some r → (s.phase r).isOpen = true ∨ (s.phase r).isOver = true
  call : ∀ n, CallInv s n (s.phase n)
  fresh : ∀ n, s.phase n = .notCalled ↔ s.calls ≤ n

variable {s s' : State} {n r call : ℕ} {p : Phase} {method : Method}

/-! ## What a step leaves to the others -/

/-- What a step of one call leaves to the others. -/
structure Moves (s s' : State) (call : ℕ) : Prop where
  phase : ∀ n, n ≠ call → s'.phase n = s.phase n
  found : ∀ n, n ≠ call → s'.found n = s.found n
  live : (∃ n method, s.phase n = .inPortal method) → (s.phase call).isLive = true →
    (s'.phase call).isLive = true
  ended : (s.phase call).isOver = true → (s'.phase call).isOver = true
  stays : s.isClosed = true → s'.isClosed = true
  closes : s.isClosed = false → s'.isClosed = true → s.closeLock = some call
  serves : s'.phase call = .serving → s.phase call = .serving ∨ s.isClosed = false
  closed : s.isClosed = true → s.closed = true ∨ s.refused = true →
    s'.closed = true ∨ s'.refused = true

theorem Moves.isLive (h : Moves s s' call) (hn : s.phase n = .inPortal method)
    (hr : (s.phase r).isLive = true) : (s'.phase r).isLive = true := by
  by_cases hc : r = call
  · subst hc
    exact h.live ⟨n, method, hn⟩ hr
  · rw [h.phase r hc]
    exact hr

theorem Moves.isOver (h : Moves s s' call) (hr : (s.phase r).isOver = true) :
    (s'.phase r).isOver = true := by
  by_cases hc : r = call
  · subst hc
    exact h.ended hr
  · rw [h.phase r hc]
    exact hr

/-- Only the one that holds the lock of `server_close()` closes. -/
theorem Moves.not_closed (h : Moves s s' call) (hinv : Inv s) (hn : n ≠ call)
    (hholds : (s.phase n).holdsClose = true) (hclosed : s.isClosed = false) :
    s'.isClosed = false := by
  by_contra hc
  have howner := h.closes hclosed (Bool.eq_true_of_not_eq_false hc)
  exact hn (hinv.closeLock.unique hholds ((hinv.closeLock call).1 howner))

theorem CallInv.moves (h : CallInv s n (s.phase n)) (hinv : Inv s) (hm : Moves s s' call)
    (hn : n ≠ call) : CallInv s' n (s'.phase n) := by
  rw [hm.phase n hn]
  refine ⟨h.waitClose, fun hp => hm.not_closed hinv hn ?_ (h.opens hp), fun method hp => ?_,
    fun hp r hr => ?_, fun hp => ?_⟩
  · rcases hp with hp | hp <;> rw [hp] <;> rfl
  · obtain ⟨hmethod, r, hfound, hlive⟩ := h.inPortal method hp
    exact ⟨hmethod, r, (hm.found n hn).trans hfound, hm.isLive hp hlive⟩
  · exact hm.isOver (h.shutdown hp r ((hm.found n hn).symm.trans hr))
  · obtain ⟨hclosed, hserves⟩ := h.serverClose hp
    refine ⟨hm.stays hclosed, fun r hr => hm.closed hclosed (hserves r ?_)⟩
    by_cases hc : r = call
    · subst hc
      refine (hm.serves hr).resolve_right fun hopen => ?_
      rw [hclosed] at hopen
      cases hopen
    · exact (hm.phase r hc).symm.trans hr

/-! ## Steps of the calls that do not run the server -/

theorem serving_update (hp : s.phase call ≠ .serving) {q : Phase} (hq : q ≠ .serving) :
    (∃ r, Function.update s.phase call q r = .serving) ↔ ∃ r, s.phase r = .serving := by
  refine exists_congr fun r => ?_
  by_cases hr : r = call
  · subst hr
    rw [Function.update_self]
    exact iff_of_false hq hp
  · rw [Function.update_of_ne hr]

/-- A call that does not run the server moves on. -/
theorem Inv.side (h : Inv s) {q : Phase} (hp : (s.phase call).isRun = false)
    (hq : q.isRun = false) (hover : (s.phase call).isOver = false)
    (hframe : s' = { s with
      closeLock := s'.closeLock
      bootstrapLock := s'.bootstrapLock
      isClosed := s'.isClosed
      closed := s'.closed
      refused := s'.refused
      found := s'.found
      calls := s'.calls
      phase := Function.update s.phase call q })
    (hclose : Owns s'.closeLock (fun p : Phase => p.holdsClose = true)
      (Function.update s.phase call q))
    (hbootstrap : Owns s'.bootstrapLock (fun p : Phase => p.holdsBootstrap = true)
      (Function.update s.phase call q))
    (hfresh : ∀ n, Function.update s.phase call q n = .notCalled ↔ s'.calls ≤ n)
    (hfound : s'.found = s.found ∨ s'.found = Function.update s.found call s.threadsPortal)
    (hstays : s.isClosed = true → s'.isClosed = true)
    (hcloses : s.isClosed = false → s'.isClosed = true → s.closeLock = some call)
    (hclosed : s.closed = true ∨ s.refused = true → s'.closed = true ∨ s'.refused = true)
    (hcall : CallInv s' call q) : Inv s' := by
  have hphase : s'.phase = Function.update s.phase call q := by rw [hframe]
  have hself : s'.phase call = q := by rw [hphase, Function.update_self]
  have hother : ∀ n, n ≠ call → s'.phase n = s.phase n := fun n hn => by
    rw [hphase, Function.update_of_ne hn]
  have hportal : s'.threadsPortal = s.threadsPortal := by rw [hframe]
  have hnot : ∀ {p : Phase}, p.isRun = false → p.isOpen = false := fun hp =>
    Bool.eq_false_iff.2 fun ho => by
      rw [Phase.isRun_of_isOpen ho] at hp
      cases hp
  have hlive : ∀ {p : Phase}, p.isRun = false → p.isLive ≠ true := fun hp hl => by
    have hopen := hnot hp
    rw [Phase.isOpen_of_isLive hl] at hopen
    cases hopen
  have hserves : ∀ {p : Phase}, p.isRun = false → p ≠ .serving := by
    rintro p hp rfl
    cases hp
  have hmoves : Moves s s' call := by
    refine ⟨hother, fun n hn => ?_, fun _ hl => absurd hl (hlive hp), fun ho => ?_, hstays, hcloses,
      fun hs => absurd hs (hself ▸ hserves hq), fun _ => hclosed⟩
    · rcases hfound with hf | hf
      · rw [hf]
      · rw [hf, Function.update_of_ne hn]
    · rw [hover] at ho
      cases ho
  obtain ⟨run, hrun, hshutdown⟩ := h.run
  refine ⟨hphase ▸ hclose, hphase ▸ hbootstrap, ⟨run, ?_, ?_⟩, ?_, ?_, ?_, fun n r hr => ?_,
    fun n => ?_, fun n => ?_⟩
  · rw [hphase]
    exact hrun.keep (by rw [hp, hq])
  · rw [hframe]
    exact hshutdown
  · rw [hphase, hportal]
    exact h.portal.keep (by rw [hnot hp, hnot hq])
  · rw [hframe]
    exact h.server
  · rw [hphase, serving_update (hserves hp) (hserves hq), ← h.loop, hframe]
  · have hold : (s.phase r).isOpen = true ∨ (s.phase r).isOver = true := by
      rcases hfound with hf | hf
      · exact h.found n r (hf ▸ hr)
      · by_cases hn : n = call
        · subst hn
          rw [hf, Function.update_self] at hr
          exact .inl ((h.portal r).1 hr)
        · rw [hf, Function.update_of_ne hn] at hr
          exact h.found n r hr
    by_cases hc : r = call
    · subst hc
      rw [hnot hp, hover] at hold
      rcases hold with hold | hold <;> cases hold
    · rw [hother r hc]
      exact hold
  · by_cases hn : n = call
    · subst hn
      rw [hself]
      exact hcall
    · exact (h.call n).moves h hmoves hn
  · rw [hphase]
    exact hfresh n

/-- A call that has been made moves on. -/
theorem Inv.fresh_update (h : Inv s) (hp : s.phase call ≠ .notCalled) {q : Phase}
    (hq : q ≠ .notCalled) (n : ℕ) :
    Function.update s.phase call q n = .notCalled ↔ s.calls ≤ n := by
  by_cases hn : n = call
  · subst hn
    rw [Function.update_self]
    exact iff_of_false hq fun hle => hp ((h.fresh n).2 hle)
  · rw [Function.update_of_ne hn]
    exact h.fresh n

theorem CallInv.of_isPlain (h : p.isPlain = true) : CallInv s call p := by
  refine ⟨fun method hp => ?_, fun hp => ?_, fun method hp => ?_, fun hp => ?_, fun hp => ?_⟩
  · rw [hp] at h
    cases h
  · rcases hp with hp | hp <;> rw [hp] at h <;> cases h
  · rw [hp] at h
    cases h
  · rw [hp] at h
    cases h
  · rw [hp] at h
    cases h

/-- A call has used the portal, or has found none. -/
theorem Inv.leave (h : Inv s) (hmethod : method ≠ .serveForever)
    (hp : s.phase call = .waitBootstrap method ∨ s.phase call = .inPortal method)
    (hbootstrap : ∀ q : Phase, q.holdsBootstrap = false →
      Owns none (fun p : Phase => p.holdsBootstrap = true) (Function.update s.phase call q))
    {closed refused : Bool} {found : ℕ → Option ℕ} {outcome : Outcome}
    (hfound : found = s.found ∨ found = Function.update s.found call s.threadsPortal)
    (hclosed : s.closed = true ∨ s.refused = true → closed = true ∨ refused = true)
    (hserves : method = .serverClose → ∀ r, s.phase r = .serving →
      outcome = .returned → closed = true ∨ refused = true) :
    Inv ({ s with bootstrapLock := none, closed, refused, found }.leave call outcome method) := by
  have hrun : (s.phase call).isRun = false := by rcases hp with hp | hp <;> rw [hp] <;> rfl
  have hover : (s.phase call).isOver = false := by rcases hp with hp | hp <;> rw [hp] <;> rfl
  have hne : s.phase call ≠ .notCalled := by
    rintro hc
    rcases hp with hp | hp <;> rw [hc] at hp <;> cases hp
  -- the methods that do not hold the lock of `server_close()`
  have hkeeps : ∀ q : Phase, (s.phase call).holdsClose = false → q.isRun = false →
      q.holdsClose = false → q.holdsBootstrap = false → q.isPlain = true →
      Inv ({ s with bootstrapLock := none, closed, refused, found }.setPhase call q) := by
    intro q hclose hq hqclose hqboot hplain
    have hqne : q ≠ .notCalled := by
      rintro rfl
      cases hplain
    exact h.side hrun hq hover rfl (h.closeLock.keep (by rw [hclose, hqclose])) (hbootstrap q hqboot)
      (h.fresh_update hne hqne) hfound id (fun ho hc => Bool.noConfusion (ho.symm.trans hc)) hclosed
      (.of_isPlain hplain)
  cases method with
  | serveForever => exact absurd rfl hmethod
  | shutdown timeout =>
    have hclose : (s.phase call).holdsClose = false := by rcases hp with hp | hp <;> rw [hp] <;> rfl
    unfold State.leave
    dsimp only
    split_ifs with houtcome
    · exact hkeeps (.waitShutdown timeout) hclose rfl rfl rfl rfl
    · refine hkeeps (.ended (.shutdown timeout) outcome) hclose rfl rfl rfl ?_
      exact Bool.or_eq_true_iff.2 (.inl (bne_iff_ne.2 houtcome))
  | serverClose =>
    have hclose : (s.phase call).holdsClose = true := by rcases hp with hp | hp <;> rw [hp] <;> rfl
    have howner : s.closeLock = some call := (h.closeLock call).2 hclose
    have hq : (Phase.ended .serverClose outcome) ≠ .notCalled := by rintro ⟨⟩
    have hlock := h.closeLock
    rw [howner] at hlock
    refine h.side (q := .ended .serverClose outcome) hrun rfl hover rfl (hlock.release nofun)
      (hbootstrap _ rfl) (h.fresh_update hne hq) hfound (fun _ => rfl) (fun _ _ => howner) hclosed
      ⟨nofun, fun hp => hp.elim nofun nofun, nofun, nofun, fun hp => ⟨rfl, ?_⟩⟩
    intro r hr
    by_cases hc : r = call
    · subst hc
      change Function.update _ _ _ _ = _ at hr
      rw [Function.update_self] at hr
      cases hr
    · change Function.update _ _ _ _ = _ at hr
      rw [Function.update_of_ne hc] at hr
      cases hp
      exact hserves rfl r hr rfl
  | isServing =>
    have hclose : (s.phase call).holdsClose = false := by rcases hp with hp | hp <;> rw [hp] <;> rfl
    exact hkeeps (.ended .isServing outcome) hclose rfl rfl rfl (Bool.or_eq_true_iff.2 (.inr rfl))

/-- No server is found, or its portal is closed. -/
theorem Inv.leave_unused (h : Inv s) (hmethod : method ≠ .serveForever)
    (hp : s.phase call = .waitBootstrap method) (hfree : s.bootstrapLock = none)
    (hloop : s.portalLoop = false) {found : ℕ → Option ℕ}
    (hfound : found = s.found ∨ found = Function.update s.found call s.threadsPortal) :
    Inv ({ s with found }.leave call .returned method) := by
  have hlock := h.bootstrapLock
  rw [hfree] at hlock
  have hsame : ({ s with found } : State) = { s with bootstrapLock := none, found } := by
    rw [← hfree]
  rw [hsame]
  refine h.leave hmethod (.inl hp) (fun q hq => hlock.keep (by rw [hp, hq]; rfl)) hfound id ?_
  intro _ r hr
  rw [h.loop.2 ⟨r, hr⟩] at hloop
  cases hloop

/-- The lock of the bootstrap is used for the portal. -/
theorem Inv.usePortal (h : Inv s) (hmethod : method ≠ .serveForever)
    (hp : s.phase call = .waitBootstrap method) (hfree : s.bootstrapLock = none) :
    Inv (s.usePortal call method) := by
  unfold State.usePortal
  dsimp only
  split_ifs with hopen hloop
  · obtain ⟨r, hserving⟩ := h.loop.1 hloop
    have hr : s.threadsPortal = some r := (h.portal r).2 (by rw [hserving]; rfl)
    have hne : r ≠ call := by
      rintro rfl
      rw [hp] at hserving
      cases hserving
    have hlock := h.bootstrapLock
    rw [hfree] at hlock
    refine h.side (q := .inPortal method) (by rw [hp]; rfl) rfl (by rw [hp]; rfl) rfl
      (h.closeLock.keep ?_) (hlock.acquire rfl) (h.fresh_update (by rw [hp]; nofun) nofun) (.inr rfl)
      id (fun ho hc => Bool.noConfusion (ho.symm.trans hc)) id
      ⟨nofun, fun hp => hp.elim nofun nofun, fun m hm => ?_, nofun, nofun⟩
    · rw [hp]
      cases method with
      | serveForever => exact absurd rfl hmethod
      | shutdown timeout => exact Iff.rfl
      | serverClose => exact Iff.rfl
      | isServing => exact Iff.rfl
    · cases hm
      refine ⟨hmethod, r, (Function.update_self ..).trans hr, ?_⟩
      show (Function.update s.phase call _ r).isLive = true
      rw [Function.update_of_ne hne, hserving]
      rfl
  · exact h.leave_unused hmethod hp hfree (Bool.eq_false_iff.2 hloop) (.inr rfl)
  · refine h.leave_unused hmethod hp hfree (Bool.eq_false_iff.2 fun hloop => hopen ?_) (.inl rfl)
    obtain ⟨r, hserving⟩ := h.loop.1 hloop
    have hr : s.threadsPortal = some r := (h.portal r).2 (by rw [hserving]; rfl)
    rw [hr, h.server r hr]
    exact ⟨rfl, rfl⟩

/-- A coroutine of the portal ends. -/
theorem Inv.portalDone (h : Inv s) (hp : s.phase call = .inPortal method) (result : Result) :
    Inv (s.portalDone call method result) := by
  have hmethod := ((h.call call).inPortal method hp).1
  have hlock := h.bootstrapLock
  rw [(h.bootstrapLock call).2 (by rw [hp]; rfl)] at hlock
  have hbootstrap : ∀ q : Phase, q.holdsBootstrap = false →
      Owns none (fun p : Phase => p.holdsBootstrap = true) (Function.update s.phase call q) :=
    fun q hq => hlock.release (Bool.eq_false_iff.1 hq)
  unfold State.portalDone
  dsimp only
  cases result with
  | ok =>
    dsimp only
    split_ifs with hc
    · exact h.leave hmethod (.inr hp) hbootstrap (.inl rfl) (fun _ => .inl rfl) fun _ _ _ _ => .inl rfl
    · exact h.leave hmethod (.inr hp) hbootstrap (.inl rfl) id fun hm => absurd hm hc
  | suppressed =>
    dsimp only
    split_ifs with hc
    · exact h.leave hmethod (.inr hp) hbootstrap (.inl rfl) (fun _ => .inr rfl) fun _ _ _ _ => .inr rfl
    · exact h.leave hmethod (.inr hp) hbootstrap (.inl rfl) id fun hm r hr =>
        absurd ⟨hm, h.loop.2 ⟨r, hr⟩⟩ hc
  | raises => exact h.leave hmethod (.inr hp) hbootstrap (.inl rfl) id fun _ _ _ => nofun

/-- A call gets the lock of `server_close()`. -/
theorem Inv.acquiredClose (h : Inv s) (hp : s.phase call = .waitClose method)
    (hfree : s.closeLock = none) : Inv (s.acquiredClose call method) := by
  have hmethod := (h.call call).waitClose method hp
  have hlock := h.closeLock
  rw [hfree] at hlock
  unfold State.acquiredClose
  split_ifs with hc
  · exact h.side (q := .ended .serveForever .serverClosed) (by rw [hp]; rfl) rfl (by rw [hp]; rfl) rfl
      (h.closeLock.keep (by rw [hp]; rfl)) (h.bootstrapLock.keep (by rw [hp]; rfl))
      (h.fresh_update (by rw [hp]; nofun) nofun) (.inl rfl) id
      (fun ho hc => Bool.noConfusion (ho.symm.trans hc)) id (.of_isPlain rfl)
  · refine h.side (q := .waitBootstrap method) (by rw [hp]; rfl) rfl (by rw [hp]; rfl) rfl
      (hlock.acquire ?_) (h.bootstrapLock.keep (by rw [hp]; rfl))
      (h.fresh_update (by rw [hp]; nofun) nofun) (.inl rfl) id
      (fun ho hc => Bool.noConfusion (ho.symm.trans hc)) id
      ⟨nofun, fun hm => ?_, nofun, nofun, nofun⟩
    · rcases hmethod with rfl | rfl <;> rfl
    · rcases hm with hm | hm
      · cases hm
        exact Bool.eq_false_iff.2 fun hclosed => hc ⟨rfl, hclosed⟩
      · cases hm

/-- `is_shutdown.wait()` ends. -/
theorem Inv.wakes (h : Inv s) {timeout : Bool} (hp : s.phase call = .waitShutdown timeout)
    (hshutdown : timeout = false → s.isShutdown = true) :
    Inv (s.setPhase call (.ended (.shutdown timeout) .returned)) := by
  refine h.side (by rw [hp]; rfl) rfl (by rw [hp]; rfl) rfl (h.closeLock.keep (by rw [hp]; rfl))
    (h.bootstrapLock.keep (by rw [hp]; rfl)) (h.fresh_update (by rw [hp]; nofun) nofun) (.inl rfl) id
    (fun ho hc => Bool.noConfusion (ho.symm.trans hc)) id
    ⟨nofun, fun hm => hm.elim nofun nofun, nofun, fun hm r hr => ?_, nofun⟩
  cases hm
  -- the server that has been found is not running any more
  obtain ⟨run, hrun, hiff⟩ := h.run
  rw [hiff.1 (hshutdown rfl)] at hrun
  have hnot : (s.phase r).isOpen ≠ true := fun ho => hrun.not_holds r (Phase.isRun_of_isOpen ho)
  have hover := (h.found call r hr).resolve_left hnot
  have hne : r ≠ call := by
    rintro rfl
    rw [hp] at hover
    cases hover
  show (Function.update s.phase call _ r).isOver = true
  rw [Function.update_of_ne hne]
  exact hover

/-! ## Steps of the call that runs the server -/

theorem Inv.runs (h : Inv s) {q : Phase} (hne : s.phase call ≠ .notCalled) (hq : q ≠ .notCalled)
    (hphase : s'.phase = Function.update s.phase call q) (hmoves : Moves s s' call)
    (hfound : s'.found = s.found) (hcalls : s'.calls = s.calls)
    (hpast : (s.phase call).isOpen = true ∨ (s.phase call).isOver = true →
      q.isOpen = true ∨ q.isOver = true)
    (hclose : Owns s'.closeLock (fun p : Phase => p.holdsClose = true)
      (Function.update s.phase call q))
    (hbootstrap : Owns s'.bootstrapLock (fun p : Phase => p.holdsBootstrap = true)
      (Function.update s.phase call q))
    (hrun : ∃ run, Owns run (fun p : Phase => p.isRun = true) (Function.update s.phase call q) ∧
      (s'.isShutdown = true ↔ run = none))
    (hportal : Owns s'.threadsPortal (fun p : Phase => p.isOpen = true)
      (Function.update s.phase call q))
    (hserver : ∀ r, s'.threadsPortal = some r → s'.server = some r)
    (hloop : s'.portalLoop = true ↔ ∃ r, Function.update s.phase call q r = .serving)
    (hcall : CallInv s' call q) : Inv s' := by
  have hself : s'.phase call = q := by rw [hphase, Function.update_self]
  refine ⟨hphase ▸ hclose, hphase ▸ hbootstrap, hphase ▸ hrun, hphase ▸ hportal, hserver,
    hphase ▸ hloop, fun n r hr => ?_, fun n => ?_, fun n => ?_⟩
  · rw [hfound] at hr
    by_cases hc : r = call
    · subst hc
      rw [hself]
      exact hpast (h.found n r hr)
    · rw [hmoves.phase r hc]
      exact h.found n r hr
  · by_cases hn : n = call
    · subst hn
      rw [hself]
      exact hcall
    · exact (h.call n).moves h hmoves hn
  · rw [hphase, hcalls]
    exact h.fresh_update hne hq n

/-- The call that runs the server moves on. -/
theorem Moves.of_update {q : Phase} (hphase : s'.phase = Function.update s.phase call q)
    (hfound : s'.found = s.found) (hisClosed : s'.isClosed = s.isClosed)
    (hlive : (∃ n method, s.phase n = .inPortal method) → (s.phase call).isLive = true →
      q.isLive = true)
    (hover : (s.phase call).isOver = false)
    (hserves : q = .serving → s.phase call = .serving ∨ s.isClosed = false)
    (hclosed : s.isClosed = true → s.closed = true ∨ s.refused = true →
      s'.closed = true ∨ s'.refused = true) : Moves s s' call := by
  have hself : s'.phase call = q := by rw [hphase, Function.update_self]
  refine ⟨fun n hn => ?_, fun n _ => by rw [hfound], ?_, fun ho => ?_, fun hc => hisClosed.trans hc,
    fun ho hc => ?_, ?_, hclosed⟩
  · rw [hphase, Function.update_of_ne hn]
  · rw [hself]
    exact hlive
  · rw [hover] at ho
    cases ho
  · rw [hisClosed, ho] at hc
    cases hc
  · rw [hself]
    exact hserves

/-- While the server is started, there is no portal. -/
theorem Inv.portal_none (h : Inv s) (call : ℕ) (hrun : (s.phase call).isRun = true)
    (hopen : (s.phase call).isOpen = false) : s.threadsPortal = none := by
  obtain ⟨run, howns, -⟩ := h.run
  cases hportal : s.threadsPortal with
  | none => rfl
  | some r =>
    have ho := (h.portal r).1 hportal
    rw [← howns.unique hrun (Phase.isRun_of_isOpen ho), hopen] at ho
    cases ho

/-- No portal, no server. -/
theorem server_of_none (hportal : s'.threadsPortal = none) (r : ℕ) (hr : s'.threadsPortal = some r) :
    s'.server = some r := by
  rw [hportal] at hr
  cases hr

theorem Inv.starts (h : Inv s) (hp : s.phase call = .waitBootstrap .serveForever)
    (hfree : s.bootstrapLock = none) (hshutdown : s.isShutdown = true) :
    Inv ({ s with bootstrapLock := some call, isShutdown := false }.setPhase call .starting) := by
  have hopen := (h.call call).opens (.inl hp)
  have hlock := h.bootstrapLock
  rw [hfree] at hlock
  obtain ⟨run, hrun, hiff⟩ := h.run
  rw [hiff.1 hshutdown] at hrun
  have hmoves : Moves s ({ s with bootstrapLock := some call, isShutdown := false }.setPhase call
      .starting) call :=
    .of_update rfl rfl rfl (fun _ hl => by rw [hp] at hl; cases hl) (by rw [hp]; rfl) nofun fun _ => id
  refine h.runs (q := .starting) (by rw [hp]; nofun) nofun rfl hmoves rfl rfl (fun ho => ?_)
    (h.closeLock.keep (by rw [hp]; rfl)) (hlock.acquire rfl)
    ⟨some call, hrun.acquire rfl, iff_of_false nofun nofun⟩ (h.portal.keep (by rw [hp]; rfl)) h.server
    (h.loop.trans (serving_update (q := .starting) (by rw [hp]; nofun) nofun).symm)
    ⟨nofun, fun _ => hopen, nofun, nofun, nofun⟩
  rw [hp] at ho
  rcases ho with ho | ho <;> cases ho

theorem Inv.up (h : Inv s) (hp : s.phase call = .starting) : Inv (s.up call) := by
  have hopen := (h.call call).opens (.inr hp)
  have hclose := h.closeLock
  rw [(h.closeLock call).2 (by rw [hp]; rfl)] at hclose
  have hbootstrap := h.bootstrapLock
  rw [(h.bootstrapLock call).2 (by rw [hp]; rfl)] at hbootstrap
  have hportal := h.portal
  rw [h.portal_none call (by rw [hp]; rfl) (by rw [hp]; rfl)] at hportal
  obtain ⟨run, hrun, hiff⟩ := h.run
  have hmoves : Moves s (s.up call) call :=
    .of_update rfl rfl rfl (fun _ _ => rfl) (by rw [hp]; rfl) (fun _ => .inr hopen) fun hc =>
      Bool.noConfusion (hopen.symm.trans hc)
  refine h.runs (q := .serving) (by rw [hp]; nofun) nofun rfl hmoves rfl rfl (fun _ => .inl rfl)
    (hclose.release nofun) (hbootstrap.release nofun) ⟨run, hrun.keep (by rw [hp]; rfl), hiff⟩
    (hportal.acquire rfl) (fun _ => id) (iff_of_true rfl ⟨call, Function.update_self ..⟩)
    (.of_isPlain rfl)

theorem Inv.fails (h : Inv s) (hp : s.phase call = .starting) (server : Option ℕ) :
    Inv ({ s with server }.setPhase call .failing) := by
  have hportal : s.threadsPortal = none :=
    h.portal_none call (by rw [hp]; rfl) (by rw [hp]; rfl)
  obtain ⟨run, hrun, hiff⟩ := h.run
  have hmoves : Moves s ({ s with server }.setPhase call .failing) call :=
    .of_update rfl rfl rfl (fun _ hl => by rw [hp] at hl; cases hl) (by rw [hp]; rfl) nofun fun _ => id
  refine h.runs (q := .failing) (by rw [hp]; nofun) nofun rfl hmoves rfl rfl (fun ho => ?_)
    (h.closeLock.keep (by rw [hp]; rfl)) (h.bootstrapLock.keep (by rw [hp]; rfl))
    ⟨run, hrun.keep (by rw [hp]; rfl), hiff⟩ (h.portal.keep (by rw [hp]; rfl))
    (server_of_none hportal)
    (h.loop.trans (serving_update (q := .failing) (by rw [hp]; nofun) nofun).symm) (.of_isPlain rfl)
  rw [hp] at ho
  rcases ho with ho | ho <;> cases ho

theorem Inv.asyncEnds (h : Inv s) (hp : s.phase call = .serving) :
    Inv ({ s with portalLoop := false, settingUp := false }.setPhase call .draining) := by
  obtain ⟨run, hrun, hiff⟩ := h.run
  have hmoves : Moves s ({ s with portalLoop := false, settingUp := false }.setPhase call
      .draining) call :=
    .of_update rfl rfl rfl (fun _ _ => rfl) (by rw [hp]; rfl) nofun fun _ => id
  refine h.runs (q := .draining) (by rw [hp]; nofun) nofun rfl hmoves rfl rfl (fun _ => .inl rfl)
    (h.closeLock.keep (by rw [hp]; rfl)) (h.bootstrapLock.keep (by rw [hp]; rfl))
    ⟨run, hrun.keep (by rw [hp]; rfl), hiff⟩ (h.portal.keep (by rw [hp]; rfl)) h.server
    (iff_of_false nofun ?_) (.of_isPlain rfl)
  -- no other call serves
  rintro ⟨r, hr⟩
  by_cases hc : r = call
  · rw [hc, Function.update_self] at hr
    cases hr
  · rw [Function.update_of_ne hc] at hr
    exact hc (hrun.unique (by rw [hr]; rfl) (by rw [hp]; rfl))

theorem Inv.drained (h : Inv s) (hp : s.phase call = .draining)
    (hnone : ∀ n method, s.phase n ≠ .inPortal method) : Inv (s.setPhase call .reacquire) := by
  obtain ⟨run, hrun, hiff⟩ := h.run
  have hmoves : Moves s (s.setPhase call .reacquire) call := by
    refine .of_update rfl rfl rfl (fun hn _ => ?_) (by rw [hp]; rfl) nofun fun _ => id
    obtain ⟨n, method, hn⟩ := hn
    exact absurd hn (hnone n method)
  exact h.runs (q := .reacquire) (by rw [hp]; nofun) nofun rfl hmoves rfl rfl (fun _ => .inl rfl)
    (h.closeLock.keep (by rw [hp]; rfl)) (h.bootstrapLock.keep (by rw [hp]; rfl))
    ⟨run, hrun.keep (by rw [hp]; rfl), hiff⟩ (h.portal.keep (by rw [hp]; rfl)) h.server
    (h.loop.trans (serving_update (q := .reacquire) (by rw [hp]; nofun) nofun).symm) (.of_isPlain rfl)

theorem Inv.finish (h : Inv s) (hp : s.phase call = .failing ∨ s.phase call = .reacquire)
    (hfree : s.bootstrapLock = none ∨ s.bootstrapLock = some call) (outcome : Outcome) :
    Inv (s.finish call outcome) := by
  have hisRun : (s.phase call).isRun = true := by rcases hp with hp | hp <;> rw [hp] <;> rfl
  have hnotLive : (s.phase call).isLive = false := by rcases hp with hp | hp <;> rw [hp] <;> rfl
  have hover : (s.phase call).isOver = false := by rcases hp with hp | hp <;> rw [hp] <;> rfl
  have hserving : s.phase call ≠ .serving := by
    rintro hc
    rw [hc] at hnotLive
    cases hnotLive
  have hne : s.phase call ≠ .notCalled := by
    rintro hc
    rw [hc] at hisRun
    cases hisRun
  obtain ⟨run, hrun, hiff⟩ := h.run
  rw [(hrun call).2 hisRun] at hrun
  have hended : Owns none (fun p : Phase => p.isRun = true)
      (Function.update s.phase call (.ended .serveForever outcome)) := hrun.release nofun
  have hmoves : Moves s (s.finish call outcome) call :=
    .of_update rfl rfl rfl (fun _ hl => by rw [hnotLive] at hl; cases hl) hover nofun fun _ => id
  refine h.runs (q := .ended .serveForever outcome) hne nofun rfl hmoves rfl rfl (fun _ => .inr rfl) ?_ ?_
    ⟨none, hended, iff_of_true rfl rfl⟩
    (fun n => iff_of_false nofun fun ho => hended.not_holds n (Phase.isRun_of_isOpen ho))
    (server_of_none rfl)
    (h.loop.trans (serving_update (q := .ended .serveForever outcome) hserving nofun).symm)
    (.of_isPlain (Bool.or_eq_true_iff.2 (.inr rfl)))
  · have hclose := h.closeLock
    show Owns (if s.closeLock = some call then none else s.closeLock) _ _
    split_ifs with hc
    · rw [hc] at hclose
      exact hclose.release nofun
    · exact hclose.keep (iff_of_false nofun fun hholds => hc ((h.closeLock call).2 hholds))
  · have hbootstrap := h.bootstrapLock
    rcases hfree with hfree | hfree <;> rw [hfree] at hbootstrap
    · exact hbootstrap.keep (iff_of_false nofun (hbootstrap.not_holds call))
    · exact hbootstrap.release nofun

/-! ## Runs -/

/-- A call is made, in a thread of its own. -/
theorem Inv.called (h : Inv s) {q : Phase}
    (hq : q = .waitClose method ∧ (method = .serveForever ∨ method = .serverClose) ∨
      q = .waitBootstrap method ∧ method ≠ .serveForever ∧ method ≠ .serverClose) :
    Inv ({ s with calls := s.calls + 1 }.setPhase s.calls q) := by
  have hp : s.phase s.calls = .notCalled := (h.fresh s.calls).2 le_rfl
  have hclose : q.holdsClose = false := by
    rcases hq with ⟨rfl, -⟩ | ⟨rfl, h1, h2⟩
    · rfl
    · cases method with
      | serveForever => exact absurd rfl h1
      | shutdown timeout => rfl
      | serverClose => exact absurd rfl h2
      | isServing => rfl
  have hbootstrap : q.holdsBootstrap = false := by rcases hq with ⟨rfl, -⟩ | ⟨rfl, -⟩ <;> rfl
  have hrun : q.isRun = false := by rcases hq with ⟨rfl, -⟩ | ⟨rfl, -⟩ <;> rfl
  have hcalled : q ≠ .notCalled := by rcases hq with ⟨rfl, -⟩ | ⟨rfl, -⟩ <;> rintro ⟨⟩
  refine h.side (by rw [hp]; rfl) hrun (by rw [hp]; rfl) rfl
    (h.closeLock.keep (by rw [hp, hclose]; rfl)) (h.bootstrapLock.keep (by rw [hp, hbootstrap]; rfl))
    (fun n => ?_) (.inl rfl) id (fun ho hc => Bool.noConfusion (ho.symm.trans hc)) id ?_
  · by_cases hn : n = s.calls
    · subst hn
      rw [Function.update_self]
      exact iff_of_false hcalled (Nat.not_succ_le_self _)
    · rw [Function.update_of_ne hn, h.fresh n]
      show s.calls ≤ n ↔ s.calls + 1 ≤ n
      omega
  · rcases hq with ⟨rfl, hm⟩ | ⟨rfl, h1, -⟩
    · refine ⟨fun m hm' => ?_, fun hp => hp.elim nofun nofun, nofun, nofun, nofun⟩
      cases hm'
      exact hm
    · exact .of_isPlain (bne_iff_ne.2 h1)

theorem Inv.acquiredBootstrap (h : Inv s) (hp : s.phase call = .waitBootstrap method)
    (hfree : s.bootstrapLock = none) : Inv (s.acquiredBootstrap call method) := by
  cases method with
  | serveForever =>
    unfold State.acquiredBootstrap
    dsimp only
    split_ifs with hshutdown
    · exact h.starts hp hfree hshutdown
    · have hlock := h.closeLock
      rw [(h.closeLock call).2 (by rw [hp]; rfl)] at hlock
      exact h.side (q := .ended .serveForever .alreadyRunning) (by rw [hp]; rfl) rfl
        (by rw [hp]; rfl) rfl (hlock.release nofun) (h.bootstrapLock.keep (by rw [hp]; rfl))
        (h.fresh_update (by rw [hp]; nofun) nofun) (.inl rfl) id
        (fun ho hc => Bool.noConfusion (ho.symm.trans hc)) id (.of_isPlain rfl)
  | shutdown timeout => exact h.usePortal nofun hp hfree
  | serverClose => exact h.usePortal nofun hp hfree
  | isServing => exact h.usePortal nofun hp hfree

/-- The asynchronous server is set up: nobody's place changes. -/
theorem Inv.isUp (h : Inv s) : Inv { s with settingUp := false } :=
  ⟨h.closeLock, h.bootstrapLock, h.run, h.portal, h.server, h.loop, h.found, fun n =>
    ⟨(h.call n).waitClose, (h.call n).opens, (h.call n).inPortal, (h.call n).shutdown,
      (h.call n).serverClose⟩, h.fresh⟩

/-- The portal waits for all of its coroutines. -/
theorem Inv.none_inPortal (h : Inv s) (hall : ((List.range s.calls).all fun n =>
    match s.phase n with | .inPortal _ => false | _ => true) = true) (n : ℕ) (method : Method) :
    s.phase n ≠ .inPortal method := by
  intro hn
  have hlt : n < s.calls := by
    by_contra hle
    rw [(h.fresh n).2 (Nat.le_of_not_lt hle)] at hn
    cases hn
  have := List.all_eq_true.1 hall n (List.mem_range.2 hlt)
  rw [hn] at this
  cases this

theorem step_inv {a : Action} (h : Inv s) (hstep : step s a = some s') : Inv s' := by
  cases a with
  | call method =>
    obtain rfl := Option.some.inj hstep
    cases method with
    | serveForever => exact h.called (.inl ⟨rfl, .inl rfl⟩)
    | shutdown timeout => exact h.called (.inr ⟨rfl, nofun, nofun⟩)
    | serverClose => exact h.called (.inl ⟨rfl, .inr rfl⟩)
    | isServing => exact h.called (.inr ⟨rfl, nofun, nofun⟩)
  | acquireClose call =>
    unfold step at hstep
    dsimp only at hstep
    split at hstep
    · next method hp =>
      obtain ⟨hfree, hstep⟩ := Option.ite_none_right_eq_some.1 hstep
      obtain rfl := Option.some.inj hstep
      exact h.acquiredClose hp hfree
    · cases hstep
  | acquireBootstrap call =>
    unfold step at hstep
    dsimp only at hstep
    split at hstep
    · next method hp =>
      obtain ⟨hfree, hstep⟩ := Option.ite_none_right_eq_some.1 hstep
      obtain rfl := Option.some.inj hstep
      exact h.acquiredBootstrap hp hfree
    · cases hstep
  | up call =>
    obtain ⟨hp, hstep⟩ := Option.ite_none_right_eq_some.1 hstep
    obtain rfl := Option.some.inj hstep
    exact h.up hp
  | fails call activated =>
    obtain ⟨hp, hstep⟩ := Option.ite_none_right_eq_some.1 hstep
    obtain rfl := Option.some.inj hstep
    exact h.fails hp _
  | isUp call =>
    obtain ⟨-, hstep⟩ := Option.ite_none_right_eq_some.1 hstep
    obtain rfl := Option.some.inj hstep
    exact h.isUp
  | asyncEnds call =>
    obtain ⟨hp, hstep⟩ := Option.ite_none_right_eq_some.1 hstep
    obtain rfl := Option.some.inj hstep
    exact h.asyncEnds hp
  | drained call =>
    obtain ⟨⟨hp, hall⟩, hstep⟩ := Option.ite_none_right_eq_some.1 hstep
    obtain rfl := Option.some.inj hstep
    exact h.drained hp (h.none_inPortal hall)
  | portalDone call result =>
    unfold step at hstep
    dsimp only at hstep
    split at hstep
    · next method hp =>
      obtain ⟨-, hstep⟩ := Option.ite_none_right_eq_some.1 hstep
      obtain rfl := Option.some.inj hstep
      exact h.portalDone hp result
    · cases hstep
  | finish call raises =>
    obtain ⟨⟨hp, hfree⟩, hstep⟩ := Option.ite_none_right_eq_some.1 hstep
    obtain rfl := Option.some.inj hstep
    exact h.finish hp hfree _
  | wakes call =>
    unfold step at hstep
    dsimp only at hstep
    split at hstep
    · next timeout hp =>
      obtain ⟨hshutdown, hstep⟩ := Option.ite_none_right_eq_some.1 hstep
      obtain rfl := Option.some.inj hstep
      exact h.wakes hp fun _ => hshutdown
    · cases hstep
  | timesOut call =>
    unfold step at hstep
    dsimp only at hstep
    split at hstep
    · next hp =>
      obtain rfl := Option.some.inj hstep
      exact h.wakes hp nofun
    · cases hstep

theorem inv_init : Inv {} := by
  refine ⟨fun n => iff_of_false nofun nofun, fun n => iff_of_false nofun nofun,
    ⟨none, fun n => iff_of_false nofun nofun, iff_of_true rfl rfl⟩, fun n => iff_of_false nofun nofun,
    nofun, iff_of_false nofun ?_, nofun, fun n =>
    ⟨nofun, fun hp => hp.elim nofun nofun, nofun, nofun, nofun⟩, fun n => iff_of_true rfl (Nat.zero_le n)⟩
  rintro ⟨r, hr⟩
  cases hr

theorem run_inv {as : List Action} (h : Trans.run step {} as = some s) : Inv s :=
  Trans.run_inv (fun _ _ _ => step_inv) inv_init h

/-- **What the threads may rely on**, over every interleaving of calls.  One call runs the server at a
time, and `__is_shutdown` says whether there is one.  No thread waits for a portal whose event loop is
over.  A `shutdown()` without timeout that has found a server returns after this one has ended.  Once
`__is_closed` is set no server is started; and when a `server_close()` has returned, the listeners of
the server that still serves are closed, unless the call has come in its setup: then the error of
the guard has been suppressed. -/
theorem standalone_server_safe {as : List Action} {s : State} (h : Trans.run step {} as = some s) :
    (∀ n m, (s.phase n).isRun = true → (s.phase m).isRun = true → n = m) ∧
    (s.isShutdown = true ↔ ∀ n, (s.phase n).isRun = false) ∧
    (∀ n method, s.phase n = .inPortal method →
      ∃ r, s.found n = some r ∧ (s.phase r).isLive = true) ∧
    (∀ n r, s.phase n = .ended (.shutdown false) .returned → s.found n = some r →
      (s.phase r).isOver = true) ∧
    (s.isClosed = true → ∀ n, s.phase n ≠ .starting) ∧
    (∀ n, s.phase n = .ended .serverClose .returned → s.isClosed = true ∧
      ∀ r, s.phase r = .serving → s.closed = true ∨ s.refused = true) := by
  have hinv := run_inv h
  obtain ⟨run, hrun, hiff⟩ := hinv.run
  refine ⟨fun n m => hrun.unique, ?_, fun n method hn => ((hinv.call n).inPortal method hn).2,
    fun n r hn => (hinv.call n).shutdown hn r, fun hclosed n hn => ?_,
    fun n => (hinv.call n).serverClose⟩
  · rw [hiff]
    constructor
    · rintro rfl n
      exact Bool.eq_false_iff.2 (hrun.not_holds n)
    · intro hall
      cases run with
      | none => rfl
      | some r =>
        have hr : (s.phase r).isRun = true := (hrun r).1 rfl
        rw [hall r] at hr
        cases hr
  · rw [(hinv.call n).opens (.inr hn)] at hclosed
    cases hclosed

/-- A `server_close()` that comes in the setup returns, and the server goes on. -/
theorem standalone_server_safe_refused : ∃ s, Trans.run step {}
      [.call .serveForever, .acquireClose 0, .acquireBootstrap 0, .up 0, .call .serverClose,
        .acquireClose 1, .acquireBootstrap 1, .portalDone 1 .suppressed, .isUp 0] = some s ∧
    s.phase 0 = .serving ∧ s.phase 1 = .ended .serverClose .returned ∧ s.closed = false ∧
    (s.closed = true ∨ s.refused = true) := by
  obtain ⟨s, hs⟩ : ∃ s, Trans.run step {}
      [.call .serveForever, .acquireClose 0, .acquireBootstrap 0, .up 0, .call .serverClose,
        .acquireClose 1, .acquireBootstrap 1, .portalDone 1 .suppressed, .isUp 0] = some s :=
    Option.isSome_iff_exists.1 (by decide)
  have hview : some (s.phase 0, s.phase 1, s.closed) =
      some (.serving, .ended .serverClose .returned, false) := by
    rw [← Option.map_some (f := fun s : State => (s.phase 0, s.phase 1, s.closed)), ← hs]
    decide
  simp only [Option.some.injEq, Prod.mk.injEq] at hview
  obtain ⟨h0, h1, hclosed⟩ := hview
  exact ⟨s, hs, h0, h1, hclosed, ((standalone_server_safe hs).2.2.2.2.2 1 h1).2 0 h0⟩

end StandaloneServer

end EasyNetwork
