/-
  The socket files of a Unix server (`AsyncUnixStreamServer` in `servers/async_unix_stream.py`;
  `AsyncUnixDatagramServer` does the same).

  The servers factory records the path of the socket and the inode of its file.  `server_close()`
  takes the recorded paths out of the server, calls the `server_close()` of the base class, and
  unlinks the files in a thread when this returns or is cancelled.

  `P` is the type of paths, `ε` the type of exceptions, of which `isCancelled` are cancellations.  A
  file that other code creates is not one that has been recorded.
-/
import EasyNetwork.BaseServer

namespace EasyNetwork

namespace UnixServer

open BaseServer (Error)

variable {P ε : Type}

/-- Where a call of `server_close()` is. -/
inductive Call (P ε : Type) where
  | notCalled
  /-- in the `server_close()` of the base class; what it has taken out of
      `__unix_socket_to_delete` -/
  | inSuper (taken : List (P × ℕ))
  /-- in `__cleanup_unix_socket`; what is left, and the exception to raise then -/
  | cleaning (rest : List (P × ℕ)) (error : Option (Error ε))
  | ended (error : Option (Error ε))
  deriving DecidableEq, Repr

/-- The paths that the call has taken and not unlinked. -/
def Call.held : Call P ε → List (P × ℕ)
  | .inSuper taken => taken
  | .cleaning rest _ => rest
  | _ => []

structure State (P ε : Type) where
  base : BaseServer.State ε := {}
  /-- `__unix_socket_to_delete` -/
  unixSocketToDelete : List (P × ℕ) := []
  call : ℕ → Call P ε := fun _ => .notCalled
  /-- the inodes of the files -/
  files : P → Option ℕ := fun _ => none
  /-- what the servers factory has recorded -/
  recorded : List (P × ℕ) := []

inductive Action (P ε : Type) where
  /-- a step of the base class -/
  | base (a : BaseServer.Action ε)
  /-- `__activate_listeners` returns a listener that is bound to the path, or to no path -/
  | listener (call : ℕ) (path : Option P)
  /-- the thread takes the next path; `os.stat()` or `os.unlink()` may fail -/
  | unlink (call : ℕ) (failed : Bool)
  /-- the thread has ended -/
  | cleaned (call : ℕ)
  /-- other code creates, replaces or removes a file -/
  | file (path : P) (ino : Option ℕ)
  deriving DecidableEq, Repr

/-- `server_close()` calls `__cleanup_unix_socket` when the base class returns or is cancelled. -/
def cleansUp (isCancelled : ε → Bool) : Option (Error ε) → Bool
  | none => true
  | some (.other exc) => isCancelled exc
  | some _ => false

/-- The call of the `server_close()` of the base class that the step ends, and how. -/
def superEnds (s : BaseServer.State ε) : BaseServer.Action ε → Option (ℕ × Option (Error ε))
  | .closeRuns call => if s.closeGuard then some (call, some .busyResource) else none
  | .closeDone call =>
    match s.phase call with
    | .closing _ error => some (call, error)
    | _ => none
  | _ => none

namespace State
variable (s : State P ε) (isCancelled : ε → Bool)

def setCall (n : ℕ) (c : Call P ε) : State P ε := { s with call := Function.update s.call n c }

/-- `server_close()` up to the call of the base class. -/
def serverClose (n : ℕ) : State P ε :=
  { s with unixSocketToDelete := [] }.setCall n (.inSuper s.unixSocketToDelete)

/-- `server_close()` once the base class has returned or raised. -/
def superReturned (n : ℕ) (error : Option (Error ε)) : State P ε :=
  match s.call n with
  | .inSuper taken =>
    if cleansUp isCancelled error && !taken.isEmpty then s.setCall n (.cleaning taken error)
    else s.setCall n (.ended error)
  | _ => s

/-- `self.__unix_socket_to_delete[path] = os.stat(path).st_ino`; the order in which `popitem()` will
    take the paths does not matter. -/
def record [DecidableEq P] (path : P) (ino : ℕ) : State P ε :=
  { s with
    unixSocketToDelete := (path, ino) :: s.unixSocketToDelete.filter fun e => e.1 ≠ path
    recorded := (path, ino) :: s.recorded }

/-- One turn of the loop of `__cleanup_unix_socket`. -/
def cleanup [DecidableEq P] (path : P) (ino : ℕ) (failed : Bool) : State P ε :=
  -- the error is logged
  if failed then s
  else if s.files path = some ino then { s with files := Function.update s.files path none }
  else s

end State

section
variable [DecidableEq P] (isCancelled : ε → Bool)

/-- A step of the base class, and what it leads to in the Unix server. -/
def baseStep (s : State P ε) : BaseServer.Action ε → Option (State P ε)
  -- see `listener`
  | .factory _ (.returns _) => none
  | .close n =>
    match s.call n with
    | .notCalled =>
      (BaseServer.step s.base (.close n)).map fun base => { s with base := base }.serverClose n
    | _ => none
  | a =>
    (BaseServer.step s.base a).map fun base =>
      match superEnds s.base a with
      | some (n, error) => { s with base := base }.superReturned isCancelled n error
      | none => { s with base := base }

/-- One step of an interleaving. -/
def step (s : State P ε) : Action P ε → Option (State P ε)
  | .base a => baseStep isCancelled s a
  | .listener n path =>
    (BaseServer.step s.base (.factory n (.returns 1))).bind fun base =>
      match path with
      | none => some { s with base := base }
      | some path => (s.files path).map fun ino => { s with base := base }.record path ino
  | .unlink n failed =>
    match s.call n with
    | .cleaning ((path, ino) :: rest) error =>
      some ((s.cleanup path ino failed).setCall n (.cleaning rest error))
    | _ => none
  | .cleaned n =>
    match s.call n with
    | .cleaning [] error => some (s.setCall n (.ended error))
    | _ => none
  | .file path ino =>
    if ∃ e ∈ s.recorded, e.1 = path ∧ ino = some e.2 then none
    else some { s with files := Function.update s.files path ino }

end

/-! ## What is expected -/

/-- The file of the path is still the one that has been recorded. -/
def State.Live (s : State P ε) (e : P × ℕ) : Prop := s.files e.1 = some e.2

/-- The call has ended normally or by a cancellation. -/
def Call.completed (isCancelled : ε → Bool) : Call P ε → Bool
  | .ended error => cleansUp isCancelled error
  | _ => false

/-- The call is under way. -/
def Call.underWay : Call P ε → Bool
  | .inSuper _ | .cleaning _ _ => true
  | _ => false

/-- Once a call of `server_close()` has ended normally or by a cancellation, the file of every
    recorded path has been unlinked. -/
def CleanedUp (isCancelled : ε → Bool) (s : State P ε) : Prop :=
  (∃ n, (s.call n).completed isCancelled = true) → ∀ e ∈ s.recorded, ¬ s.Live e

/-- No other call of `server_close()` that is under way has taken the path of a file that is still
    there. -/
def Alone (s : State P ε) (n : ℕ) : Prop := ∀ m ≠ n, ∀ e ∈ (s.call m).held, ¬ s.Live e

/-- The three ways to leave a file behind do not happen. -/
def Safe (isCancelled : ε → Bool) (s : State P ε) : Action P ε → Prop
  -- what the call has taken is not put back
  | .base a => ∀ n error, superEnds s.base a = some (n, error) →
      if cleansUp isCancelled error then (s.call n).held = [] → Alone s n
      else ∀ e ∈ (s.call n).held, ¬ s.Live e
  -- a path that is recorded after `server_close()` has been called is not in what it has taken
  | .listener _ path => path ≠ none → ∀ n, (s.call n).underWay = false ∧
      (s.call n).completed isCancelled = false
  | .unlink _ failed => failed = false
  -- another call has not unlinked what it has taken yet
  | .cleaned n => Alone s n
  | .file _ _ => True

/-! ## The invariant -/

section
variable {isCancelled : ε → Bool} {s s' : State P ε} {n : ℕ} {c : Call P ε}

theorem call_setCall_self : (s.setCall n c).call n = c := Function.update_self ..

theorem call_setCall_of_ne {m : ℕ} (h : m ≠ n) : (s.setCall n c).call m = s.call m :=
  Function.update_of_ne h ..

/-- What holds between two steps of a run that is safe. -/
structure Inv (isCancelled : ε → Bool) (s : State P ε) : Prop where
  /-- nothing is forgotten -/
  live : ∀ e ∈ s.recorded, s.Live e → e ∈ s.unixSocketToDelete ∨ ∃ n, e ∈ (s.call n).held
  /-- what has been recorded has been taken -/
  taken : ∀ n, (s.call n).underWay = true ∨ (s.call n).completed isCancelled = true →
    s.unixSocketToDelete = []
  cleanedUp : CleanedUp isCancelled s

namespace Inv

theorem init : Inv isCancelled ({} : State P ε) where
  live _ h := absurd h List.not_mem_nil
  taken _ _ := rfl
  cleanedUp _ _ h := absurd h List.not_mem_nil

/-- A call goes on. -/
theorem setCall (h : Inv isCancelled s)
    (hheld : ∀ e ∈ (s.call n).held, s.Live e → e ∈ c.held)
    (htaken : c.underWay = true ∨ c.completed isCancelled = true → s.unixSocketToDelete = [])
    (hdone : c.completed isCancelled = true → ∀ e ∈ s.recorded, ¬ s.Live e) :
    Inv isCancelled (s.setCall n c) where
  live e he hlive := by
    refine (h.live e he hlive).imp_right fun ⟨m, hm⟩ => ⟨m, ?_⟩
    by_cases hmn : m = n
    · subst hmn
      rw [call_setCall_self]
      exact hheld e hm hlive
    · rw [call_setCall_of_ne hmn]
      exact hm
  taken m hm := by
    by_cases hmn : m = n
    · subst hmn
      rw [call_setCall_self] at hm
      exact htaken hm
    · rw [call_setCall_of_ne hmn] at hm
      exact h.taken m hm
  cleanedUp := by
    rintro ⟨m, hm⟩
    by_cases hmn : m = n
    · subst hmn
      rw [call_setCall_self] at hm
      exact hdone hm
    · rw [call_setCall_of_ne hmn] at hm
      exact h.cleanedUp ⟨m, hm⟩

/-- The last call that has something to unlink ends. -/
theorem not_live_of_alone (h : Inv isCancelled s) (hway : (s.call n).underWay = true)
    (hheld : (s.call n).held = []) (halone : Alone s n) : ∀ e ∈ s.recorded, ¬ s.Live e := by
  intro e he hlive
  rcases h.live e he hlive with hmem | ⟨m, hm⟩
  · rw [h.taken n (.inl hway)] at hmem
    exact absurd hmem List.not_mem_nil
  · by_cases hmn : m = n
    · subst hmn
      rw [hheld] at hm
      exact absurd hm List.not_mem_nil
    · exact halone m hmn e hm hlive

theorem base (h : Inv isCancelled s) (base : BaseServer.State ε) :
    Inv isCancelled { s with base := base } :=
  ⟨h.live, h.taken, h.cleanedUp⟩

/-- `server_close()` takes the paths. -/
theorem serverClose (h : Inv isCancelled s) (hn : s.call n = .notCalled) :
    Inv isCancelled (s.serverClose n) where
  live e he hlive := by
    refine .inr ?_
    rcases h.live e he hlive with hmem | ⟨m, hm⟩
    · refine ⟨n, ?_⟩
      rw [State.serverClose, call_setCall_self]
      exact hmem
    · have hmn : m ≠ n := by
        rintro rfl
        rw [hn] at hm
        exact absurd hm List.not_mem_nil
      refine ⟨m, ?_⟩
      rw [State.serverClose, call_setCall_of_ne hmn]
      exact hm
  taken _ _ := rfl
  cleanedUp := by
    rintro ⟨m, hm⟩
    have hmn : m ≠ n := by
      rintro rfl
      rw [State.serverClose, call_setCall_self] at hm
      cases hm
    rw [State.serverClose, call_setCall_of_ne hmn] at hm
    exact h.cleanedUp ⟨m, hm⟩

/-- The `server_close()` of the base class ends. -/
theorem superReturned (h : Inv isCancelled s) {error : Option (Error ε)}
    (hok : if cleansUp isCancelled error then (s.call n).held = [] → Alone s n
      else ∀ e ∈ (s.call n).held, ¬ s.Live e) :
    Inv isCancelled (s.superReturned isCancelled n error) := by
  unfold State.superReturned
  split
  · next taken hn =>
    have hway : (s.call n).underWay = true := by rw [hn]; rfl
    have hempty := h.taken n (.inl hway)
    rw [hn] at hok
    split_ifs with hcleans
    · refine h.setCall (fun e he _ => ?_) (fun _ => hempty) nofun
      rw [hn] at he
      exact he
    · rcases hc : cleansUp isCancelled error with _ | _
      · rw [hc, if_neg Bool.false_ne_true] at hok
        refine h.setCall (fun e he hlive => ?_) (fun _ => hempty) fun hdone => ?_
        · rw [hn] at he
          exact absurd hlive (hok e he)
        · exact absurd (hc.symm.trans hdone) Bool.false_ne_true
      · rw [hc, if_pos rfl] at hok
        have htaken : taken = [] := by
          simpa [hc] using hcleans
        have hheld : (s.call n).held = [] := by rw [hn]; exact htaken
        refine h.setCall (fun e he _ => ?_) (fun _ => hempty) fun _ => ?_
        · rw [hheld] at he
          exact absurd he List.not_mem_nil
        · exact h.not_live_of_alone hway hheld (hok htaken)
  · exact h

/-- The servers factory records a path. -/
theorem record [DecidableEq P] (h : Inv isCancelled s) {path : P} {ino : ℕ}
    (hfile : s.files path = some ino) (hok : ∀ n, (s.call n).underWay = false ∧
      (s.call n).completed isCancelled = false) : Inv isCancelled (s.record path ino) where
  live e he hlive := by
    rcases List.mem_cons.1 he with rfl | he
    · exact .inl List.mem_cons_self
    · by_cases hpath : e.1 = path
      · have hino : e = (path, ino) := by
          refine Prod.ext hpath ?_
          have := hlive
          rw [State.Live, hpath] at this
          exact Option.some.inj (this.symm.trans hfile)
        exact .inl (hino ▸ List.mem_cons_self)
      · refine (h.live e he hlive).imp_left fun hmem => List.mem_cons_of_mem _ ?_
        exact List.mem_filter.2 ⟨hmem, decide_eq_true hpath⟩
  taken n hn := by
    rcases hn with hn | hn
    · exact absurd ((hok n).1.symm.trans hn) Bool.false_ne_true
    · exact absurd ((hok n).2.symm.trans hn) Bool.false_ne_true
  cleanedUp := fun ⟨n, hn⟩ => absurd ((hok n).2.symm.trans hn) Bool.false_ne_true

/-- A file of a recorded path can only be removed. -/
theorem files (h : Inv isCancelled s) {files : P → Option ℕ}
    (hfiles : ∀ e ∈ s.recorded, files e.1 = some e.2 → s.Live e) :
    Inv isCancelled { s with files := files } where
  live e he hlive := h.live e he (hfiles e he hlive)
  taken := h.taken
  cleanedUp hdone e he hlive := h.cleanedUp hdone e he (hfiles e he hlive)

/-- The thread unlinks a file. -/
theorem cleanup [DecidableEq P] (h : Inv isCancelled s) (path : P) (ino : ℕ) (failed : Bool) :
    Inv isCancelled (s.cleanup path ino failed) := by
  unfold State.cleanup
  split_ifs
  · exact h
  · refine h.files fun e _ hlive => ?_
    by_cases hpath : e.1 = path
    · subst hpath
      rw [Function.update_self] at hlive
      cases hlive
    · rw [Function.update_of_ne hpath] at hlive
      exact hlive
  · exact h

end Inv

theorem not_live_cleanup [DecidableEq P] (path : P) (ino : ℕ) :
    ¬ (s.cleanup path ino false).Live (path, ino) := by
  unfold State.cleanup
  rw [if_neg Bool.false_ne_true]
  split_ifs with hfile
  · intro hlive
    have hnone : Function.update s.files path none path = some ino := hlive
    rw [Function.update_self] at hnone
    cases hnone
  · exact hfile

theorem call_cleanup [DecidableEq P] (path : P) (ino : ℕ) (failed : Bool) :
    (s.cleanup path ino failed).call = s.call := by
  unfold State.cleanup
  split_ifs <;> rfl

theorem Inv.unlink [DecidableEq P] (h : Inv isCancelled s) {path : P} {ino : ℕ}
    {rest : List (P × ℕ)} {error : Option (Error ε)}
    (hn : s.call n = .cleaning ((path, ino) :: rest) error) :
    Inv isCancelled ((s.cleanup path ino false).setCall n (.cleaning rest error)) := by
  have hclean := h.cleanup path ino false
  refine hclean.setCall (fun e he hlive => ?_) (fun _ => hclean.taken n (.inl ?_)) nofun
  · rw [call_cleanup, hn] at he
    rcases List.mem_cons.1 he with rfl | he
    · exact absurd hlive (not_live_cleanup path ino)
    · exact he
  · rw [call_cleanup, hn]
    rfl

theorem Inv.baseStep [DecidableEq P] {a : BaseServer.Action ε} (h : Inv isCancelled s)
    (hok : Safe isCancelled s (.base a)) (hs : UnixServer.baseStep isCancelled s a = some s') :
    Inv isCancelled s' := by
  unfold UnixServer.baseStep at hs
  split at hs
  · cases hs
  · split at hs
    · next hn =>
      obtain ⟨base, -, rfl⟩ := Option.map_eq_some_iff.1 hs
      exact (h.base base).serverClose hn
    · cases hs
  · obtain ⟨base, -, rfl⟩ := Option.map_eq_some_iff.1 hs
    split
    · next n error hends => exact (h.base base).superReturned (hok n error hends)
    · exact h.base base

/-- **Step lemma.** -/
theorem Inv.step [DecidableEq P] {a : Action P ε} (h : Inv isCancelled s)
    (hok : Safe isCancelled s a) (hs : UnixServer.step isCancelled s a = some s') :
    Inv isCancelled s' := by
  cases a with
  | base a => exact h.baseStep hok hs
  | listener n path =>
    obtain ⟨base, -, hs⟩ := Option.bind_eq_some_iff.1 hs
    cases path with
    | none =>
      cases hs
      exact h.base base
    | some path =>
      obtain ⟨ino, hino, rfl⟩ := Option.map_eq_some_iff.1 hs
      exact (h.base base).record hino (hok nofun)
  | unlink n failed =>
    simp only [UnixServer.step] at hs
    split at hs <;> cases hs
    cases (hok : failed = false)
    exact h.unlink ‹_›
  | cleaned n =>
    simp only [UnixServer.step] at hs
    split at hs <;> cases hs
    next hn =>
      have hway : (s.call n).underWay = true := by rw [hn]; rfl
      have hheld : (s.call n).held = [] := by rw [hn]; rfl
      refine h.setCall (fun e he _ => ?_) (fun _ => h.taken n (.inl hway)) fun _ => ?_
      · rw [hheld] at he
        exact absurd he List.not_mem_nil
      · exact h.not_live_of_alone hway hheld hok
  | file path ino =>
    simp only [UnixServer.step] at hs
    split_ifs at hs with hother
    cases hs
    refine h.files fun e he hlive => ?_
    by_cases hpath : e.1 = path
    · rw [hpath, Function.update_self] at hlive
      exact absurd ⟨e, he, hpath, hlive⟩ hother
    · rw [Function.update_of_ne hpath] at hlive
      exact hlive

/-! ## Runs -/

/-- **The socket files are cleaned up** in every run in which no call of `server_close()` that has
    taken the path of a file fails with anything but a cancellation, no path is recorded after
    `server_close()` has been called (unless the call has failed), no call of `server_close()` ends
    before another one has unlinked what it has taken, and no file resists: once a call has ended
    normally or by a cancellation, the file of every recorded path has been unlinked. -/
theorem server_close_cleans [DecidableEq P] {as : List (Action P ε)}
    (hok : Trans.Meets (step isCancelled) (Safe isCancelled) {} as)
    (h : Trans.run (step isCancelled) {} as = some s) : CleanedUp isCancelled s :=
  (Trans.run_inv_of (fun _ _ _ hinv hsafe hs => hinv.step hsafe hs) Inv.init hok h).cleanedUp

end

/-- The listener is bound to a path, and `server_close()` is cancelled: the thread unlinks the file
    before the cancellation is raised. -/
def cancelledRun : List (Action ℕ Bool) :=
  [.base (.activate 0), .base (.acquireActivation 0), .base (.wake 0), .file 7 (some 3),
    .listener 0 (some 7), .base (.close 1), .base (.acquireClose 1), .base (.closeRuns 1),
    .base (.interrupt 1 true), .base (.closeDone 1), .unlink 1 false, .cleaned 1]

theorem safe_cancelledRun : Trans.Meets (step id) (Safe id) ({} : State ℕ Bool) cancelledRun := by
  refine ⟨nofun, fun _ h => ?_⟩
  cases h
  refine ⟨nofun, fun _ h => ?_⟩
  cases h
  refine ⟨nofun, fun _ h => ?_⟩
  cases h
  refine ⟨trivial, fun _ h => ?_⟩
  cases h
  refine ⟨fun _ _ => ⟨rfl, rfl⟩, fun _ h => ?_⟩
  cases h
  refine ⟨nofun, fun _ h => ?_⟩
  cases h
  refine ⟨nofun, fun _ h => ?_⟩
  cases h
  refine ⟨nofun, fun _ h => ?_⟩
  cases h
  refine ⟨nofun, fun _ h => ?_⟩
  cases h
  refine ⟨fun n error hends => ?_, fun _ h => ?_⟩
  · cases hends
    exact nofun
  cases h
  refine ⟨rfl, fun _ h => ?_⟩
  cases h
  refine ⟨fun m hm e he => ?_, fun _ _ => trivial⟩
  rcases m with _ | _ | m
  · exact nomatch he
  · exact absurd rfl hm
  · exact nomatch he

theorem server_close_cleans_cancelled : ∃ s, Trans.run (step id) ({} : State ℕ Bool) cancelledRun =
    some s ∧ ∀ e ∈ s.recorded, ¬ s.Live e := by
  obtain ⟨s, hs⟩ : ∃ s, Trans.run (step id) ({} : State ℕ Bool) cancelledRun = some s := ⟨_, rfl⟩
  refine ⟨s, hs, server_close_cleans safe_cancelledRun hs ⟨1, ?_⟩⟩
  cases hs
  rfl

/-- `server_close()` is called during the setup of `serve_forever()`, and fails; what it has taken
    is lost.  The next call closes the server, and leaves the file. -/
theorem server_close_forgets : ∃ s, Trans.run (step id) ({} : State ℕ Bool)
      [.base (.serve 0), .base (.acquireActivation 0), .base (.wake 0), .file 7 (some 3),
        .listener 0 (some 7), .base (.close 1), .base (.acquireClose 1), .base (.closeRuns 1),
        .base (.setupDone 0 none), .base (.close 2), .base (.acquireClose 2), .base (.closeRuns 2),
        .base .taskDone, .base (.tasksDone 2), .base (.serverClosed 2 0), .base (.closeDone 2)] =
      some s ∧ s.call 1 = .ended (some .busyResource) ∧ s.call 2 = .ended none ∧
      (7, 3) ∈ s.recorded ∧ s.Live (7, 3) := by
  refine ⟨_, rfl, rfl, rfl, ?_, rfl⟩
  exact List.mem_cons_self

end UnixServer

end EasyNetwork
