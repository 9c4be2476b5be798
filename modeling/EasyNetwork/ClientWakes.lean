/-
  No datagram waits for nothing.

  The datagrams that arrive while a client coroutine runs are queued, and the handler tasks notify
  the client coroutine if it waits for one.  `Wakes`: the lock of the condition variable is held by
  one task at most, and a client coroutine that waits although data is queued is about to be
  notified.

  `datagrams_taken`: the event loop has only so much to do by itself (`rank`), and as long as data
  is queued it has something to do, or the client coroutine awaits the request handler generator.
-/
import EasyNetwork.Lib.Table
import EasyNetwork.ClientRestarts
import Mathlib.Algebra.Ring.Nat

namespace EasyNetwork

namespace DatagramServer

variable {D : Type} {s s' : State D} {i j : ℕ} {p q : Phase} {raises : Bool} {ts : List Phase}

/-- The task has the lock. -/
def Phase.holdsLock : Phase → Bool
  | .pushHolds | .popHolds _ => true
  | _ => false

/-- What the event loop does by itself, when `datagram_received_cb` returns. -/
def Action.isForced : Action D → Bool
  | .acquire _ | .resume _ false => true
  | _ => false

/-! ## The list of the tasks as a table -/

theorem getElem?_set_eq (h : ts[i]? = some p) (q : Phase) :
    (fun j => (ts.set i q)[j]?) = Function.update (fun j => ts[j]?) i (some q) := by
  funext j
  by_cases hj : j = i
  · subst hj
    rw [Function.update_self, List.getElem?_set_self (List.getElem?_eq_some_iff.1 h).1]
  · rw [Function.update_of_ne hj, List.getElem?_set_ne (Ne.symm hj)]

theorem getElem?_concat_eq (ts : List Phase) (q : Phase) :
    (fun j => (ts ++ [q])[j]?) = Function.update (fun j => ts[j]?) ts.length (some q) := by
  funext j
  by_cases hj : j = ts.length
  · subst hj
    rw [Function.update_self, List.getElem?_concat_length]
  · rw [Function.update_of_ne hj]
    rcases Nat.lt_or_gt_of_ne hj with hlt | hgt
    · exact List.getElem?_append_left hlt
    · rw [List.getElem?_eq_none (by simp; omega), List.getElem?_eq_none (Nat.le_of_lt hgt)]

/-- A notification gives the lock to nobody. -/
theorem holdsLock_notify (ts : List Phase) (j : ℕ) :
    (notify ts)[j]?.any Phase.holdsLock = ts[j]?.any Phase.holdsLock := by
  induction ts generalizing j with
  | nil => rfl
  | cons t ts ih =>
    cases j with
    | zero => cases t <;> rfl
    | succ j => cases t <;> first | rfl | exact ih j

/-- When at most one client coroutine runs, none waits after a notification. -/
theorem popWaits_notMem_notify (h : ts.countP Phase.isRunning ≤ 1) : .popWaits ∉ notify ts := by
  induction ts with
  | nil => exact List.not_mem_nil
  | cons t ts ih =>
    rw [List.countP_cons] at h
    intro hmem
    cases t with
    | popWaits =>
      -- it is the one that runs
      rcases List.mem_cons.1 hmem with hmem | hmem
      · cases hmem
      · have hpos : 0 < ts.countP Phase.isRunning := List.countP_pos_iff.2 ⟨_, hmem, rfl⟩
        simp only [Phase.isRunning, if_true] at h
        omega
    | _ =>
      rcases List.mem_cons.1 hmem with hmem | hmem
      · cases hmem
      · exact ih ((Nat.le_add_right _ _).trans h) hmem

/-! ## The invariant -/

def HasLock (task : Option Phase) : Prop := task.any Phase.holdsLock = true

theorem not_hasLock (h : p.holdsLock = false) : ¬ HasLock (some p) := fun hlock => by
  rw [HasLock, Option.any_some, h] at hlock
  cases hlock

/-- What the tasks owe each other between two steps. -/
structure Wakes (s : State D) : Prop where
  lock : Table.Owns s.clientData.lockHolder HasLock fun j => s.tasks[j]?
  notified : .popWaits ∈ s.tasks → s.clientData.datagramQueue ≠ [] →
    0 < s.tasks.countP Phase.isPushing

theorem Wakes.init : Wakes ({} : State D) where
  lock j := iff_of_false (by rintro ⟨⟩) (by rintro ⟨⟩)
  notified h := absurd h List.not_mem_nil

namespace Wakes

theorem lockHolder (h : Wakes s) (hp : s.tasks[i]? = some p) (hlock : p.holdsLock = true) :
    s.clientData.lockHolder = some i := by
  refine (h.lock i).2 ?_
  show HasLock s.tasks[i]?
  rw [hp]
  exact hlock

/-- The lock is released. -/
theorem release (h : Wakes s) (hp : s.tasks[i]? = some p) (hlock : p.holdsLock = true)
    (hq : q.holdsLock = false) :
    Table.Owns none HasLock (Function.update (fun j => s.tasks[j]?) i (some q)) := by
  have hlocked := h.lock
  rw [h.lockHolder hp hlock] at hlocked
  exact hlocked.release (not_hasLock hq)

/-- A task goes on, and another datagram is queued only if one was before. -/
theorem move (h : Wakes s) (hp : s.tasks[i]? = some p) (hq : q ≠ .popWaits)
    (hpush : p.isPushing = true → q.isPushing = true)
    (htasks : s'.tasks = s.tasks.set i q)
    (hqueue : s'.clientData.datagramQueue ≠ [] → s.clientData.datagramQueue ≠ [])
    (hlock : Table.Owns s'.clientData.lockHolder HasLock
      (Function.update (fun j => s.tasks[j]?) i (some q))) : Wakes s' := by
  refine ⟨?_, fun hmem hne => ?_⟩
  · rw [htasks, getElem?_set_eq hp]
    exact hlock
  · rw [htasks] at hmem ⊢
    have hwaits : .popWaits ∈ s.tasks := (List.mem_or_eq_of_mem_set hmem).resolve_right hq.symm
    have hpos := h.notified hwaits (hqueue hne)
    have hcount := countP_set hp Phase.isPushing q
    cases hpp : p.isPushing
    · rw [hpp] at hcount
      simp only [Bool.toNat_false] at hcount
      omega
    · rw [hpp, hpush hpp] at hcount
      omega

/-- A task that is not in a hurry goes on, and neither takes the lock nor releases it. -/
theorem go (h : Wakes s) (hp : s.tasks[i]? = some p) (hq : q ≠ .popWaits)
    (hpush : p.isPushing = false) (hkeeps : q.holdsLock = p.holdsLock) :
    Wakes (s.setPhase i q) := by
  refine h.move hp hq (fun hc => ?_) rfl id (h.lock.keep ?_)
  · rw [hpush] at hc
    cases hc
  · show HasLock (some q) ↔ HasLock s.tasks[i]?
    rw [hp]
    exact iff_of_eq (congrArg (· = true) hkeeps)

/-- A task gets the lock. -/
theorem acquire (h : Wakes s) (hp : s.tasks[i]? = some p) (hfree : s.clientData.lockHolder = none)
    (hq : q ≠ .popWaits) (hpush : p.isPushing = true → q.isPushing = true)
    (hlock : q.holdsLock = true) : Wakes (s.acquire i q) := by
  have hlocked := h.lock
  rw [hfree] at hlocked
  exact h.move hp hq hpush rfl id (hlocked.acquire hlock)

end Wakes

/-! ## A task that runs without the lock -/

/-- Task `i` runs, without the lock, and no client coroutine waits. -/
structure Runs (s : State D) (i : ℕ) : Prop where
  lt : i < s.tasks.length
  lock : ∀ q : Phase, q.holdsLock = false → Table.Owns s.clientData.lockHolder HasLock
    (Function.update (fun j => s.tasks[j]?) i (some q))
  quiet : .popWaits ∉ s.tasks

theorem markRunning_lockHolder {c c' : ClientData D} (h : c.markRunning = some c') :
    c'.lockHolder = c.lockHolder := by
  unfold ClientData.markRunning at h
  split_ifs at h
  cases h
  rfl

theorem markDone_lockHolder {c c' : ClientData D} (h : c.markDone = some c') :
    c'.lockHolder = c.lockHolder := by
  unfold ClientData.markDone at h
  split_ifs at h
  cases h
  rfl

theorem markPending_lockHolder {c c' : ClientData D} (h : c.markPending = some c') :
    c'.lockHolder = c.lockHolder := by
  unfold ClientData.markPending at h
  split_ifs at h
  cases h
  rfl

namespace Runs

/-- It goes on. -/
theorem goOn (h : Runs s i) (hq : q ≠ .popWaits) {c : ClientData D}
    (hlock : c.lockHolder = s.clientData.lockHolder) :
    Runs { s.setPhase i q with clientData := c } i where
  lt := by
    show i < (s.tasks.set i q).length
    rw [List.length_set]
    exact h.lt
  lock q' hq' := by
    show Table.Owns c.lockHolder HasLock
      (Function.update (fun j => (s.tasks.set i q)[j]?) i (some q'))
    rw [hlock, getElem?_set_eq (List.getElem?_eq_getElem h.lt), Function.update_idem]
    exact h.lock q' hq'
  quiet hmem := by
    rcases List.mem_or_eq_of_mem_set hmem with hmem | heq
    · exact h.quiet hmem
    · exact hq heq.symm

/-- It stops running. -/
theorem wakes (h : Runs s i) (q : Phase) (hq : q.holdsLock = false) (hwaits : q ≠ .popWaits)
    (htasks : s'.tasks = s.tasks.set i q)
    (hlock : s'.clientData.lockHolder = s.clientData.lockHolder) : Wakes s' where
  lock := by
    rw [hlock, htasks, getElem?_set_eq (List.getElem?_eq_getElem h.lt)]
    exact h.lock q hq
  notified hmem := by
    rw [htasks] at hmem
    exact absurd hmem (h.goOn (c := s.clientData) hwaits rfl).quiet

/-- It ends, after it has started another task. -/
theorem wakes_concat (h : Runs s i) (htasks : s'.tasks = s.tasks.set i .ended ++ [.pending])
    (hlock : s'.clientData.lockHolder = s.clientData.lockHolder) : Wakes s' where
  lock := by
    have hended := h.lock .ended rfl
    rw [← getElem?_set_eq (List.getElem?_eq_getElem h.lt)] at hended
    rw [hlock, htasks, getElem?_concat_eq]
    refine hended.keep (iff_of_false (not_hasLock rfl) ?_)
    show ¬ HasLock (s.tasks.set i .ended)[(s.tasks.set i .ended).length]?
    rw [List.getElem?_eq_none (Nat.le_refl _)]
    rintro ⟨⟩
  notified hmem := by
    rw [htasks] at hmem
    rcases List.mem_append.1 hmem with hmem | hmem
    · rcases List.mem_or_eq_of_mem_set hmem with hmem | heq
      · exact absurd hmem h.quiet
      · cases heq
    · cases List.mem_singleton.1 hmem

theorem raiseInconsistent (h : Runs s i) : Wakes (s.raiseInconsistent i) :=
  h.wakes .ended rfl (by rintro ⟨⟩) rfl rfl

theorem clientCoroutineEnd (h : Runs s i) : Wakes (s.clientCoroutineEnd i) := by
  unfold State.clientCoroutineEnd
  cases hdone : s.clientData.markDone with
  | none => exact h.raiseInconsistent
  | some c =>
    have hlock := markDone_lockHolder hdone
    show Wakes (State.onClientCoroutineTaskDone _)
    unfold State.onClientCoroutineTaskDone
    split
    · exact h.wakes .ended rfl (by rintro ⟨⟩) rfl hlock
    · split
      · exact h.wakes .ended rfl (by rintro ⟨⟩) rfl hlock
      · next hpending =>
        exact h.wakes_concat rfl ((markPending_lockHolder hpending).trans hlock)

theorem clientCoroutine (h : Runs s i) : Wakes (s.clientCoroutine i raises) := by
  unfold State.clientCoroutine
  cases hrunning : s.clientData.markRunning with
  | none => exact h.raiseInconsistent
  | some c =>
    have hlock := markRunning_lockHolder hrunning
    have hbegun := h.goOn (q := .anext) (by rintro ⟨⟩) hlock
    show Wakes (if raises then _ else _)
    split_ifs
    · exact hbegun.clientCoroutineEnd
    · rcases hqueue : c.datagramQueue with _ | ⟨datagram, queue⟩
      · rw [ClientData.popDatagramNoWait_nil hqueue]
        exact hbegun.clientCoroutineEnd
      · rw [ClientData.popDatagramNoWait_cons hqueue]
        exact h.wakes .anext rfl (by rintro ⟨⟩) rfl hlock

theorem handlerCheck (h : Runs s i) : Wakes (s.handlerCheck i raises) := by
  rcases hstarts : s.startsClient with _ | _
  · rw [handlerCheck_of_not_starts hstarts]
    exact h.wakes .ended rfl (by rintro ⟨⟩) rfl rfl
  · rw [handlerCheck_of_starts hstarts]
    exact Runs.clientCoroutine (h.goOn (q := .pending) (by rintro ⟨⟩) rfl)

end Runs

/-- No client coroutine waits when there is none, when it is pending or when another one runs. -/
theorem Inv.quiet (h : Inv s) (hstate : s.clientData.state = some .taskRunning →
    ∃ (i : ℕ) (p : Phase), s.tasks[i]? = some p ∧ p.isRunning = true ∧ p ≠ .popWaits) :
    .popWaits ∉ s.tasks := by
  intro hmem
  obtain ⟨k, hk⟩ := List.getElem?_of_mem hmem
  have hrunning := h.state_of_running hk rfl
  obtain ⟨i, p, hp, hrun, hne⟩ := hstate hrunning
  -- two different tasks would run
  have hset := countP_set hp Phase.isRunning .ended
  have hk' : (s.tasks.set i .ended)[k]? = some .popWaits := by
    rw [List.getElem?_set_ne, hk]
    rintro rfl
    rw [hk] at hp
    exact hne (Option.some.inj hp).symm
  have hstill := countP_pos (f := Phase.isRunning) hk' rfl
  rw [hrun, h.running, if_pos hrunning] at hset
  simp only [Phase.isRunning, Bool.toNat_false, Bool.toNat_true] at hset
  omega

namespace Wakes

/-- A task that has not got the lock runs. -/
theorem runs (h : Wakes s) (hp : s.tasks[i]? = some p) (hlock : p.holdsLock = false)
    (hquiet : .popWaits ∉ s.tasks) : Runs s i := by
  refine ⟨(List.getElem?_eq_some_iff.1 hp).1, fun q hq => h.lock.keep ?_, hquiet⟩
  show HasLock (some q) ↔ HasLock s.tasks[i]?
  rw [hp]
  exact iff_of_false (not_hasLock hq) (not_hasLock hlock)

theorem handler (h : Wakes s) (hinv : Inv s) (datagram : D) :
    Wakes (s.handler datagram raises) := by
  have hpushed : Wakes { s with
      clientData := s.clientData.append datagram
      tasks := s.tasks ++ [.pushAcquires]
      pushed := s.pushed ++ [datagram] } := by
    refine ⟨?_, fun _ _ => ?_⟩
    · show Table.Owns s.clientData.lockHolder HasLock fun j => (s.tasks ++ [.pushAcquires])[j]?
      rw [getElem?_concat_eq]
      refine h.lock.keep (iff_of_false (not_hasLock rfl) ?_)
      show ¬ HasLock s.tasks[s.tasks.length]?
      rw [List.getElem?_eq_none (Nat.le_refl _)]
      rintro ⟨⟩
    · rw [List.countP_append]
      exact Nat.lt_add_left _ Nat.zero_lt_one
  unfold State.handler
  show Wakes (if s.clientData.state = none then _ else _)
  split_ifs with hstate
  · refine (hpushed.runs (p := .pushAcquires) List.getElem?_concat_length rfl ?_).handlerCheck
    refine (hinv.push datagram).quiet fun hrunning => ?_
    cases hstate.symm.trans hrunning
  · exact hpushed

/-- The lock is released, and the client coroutine that waits is notified. -/
theorem pushNotifies (h : Wakes s) (hinv : Inv s) (hp : s.tasks[i]? = some .pushHolds) :
    Wakes (s.pushNotifies i raises) := by
  refine Runs.handlerCheck ⟨?_, fun q hq => ?_, popWaits_notMem_notify ?_⟩
  · exact (List.getElem?_eq_some_iff.1 (getElem?_notify hp (by rintro ⟨⟩))).1
  · intro k
    refine (h.release hp rfl hq k).trans ?_
    show HasLock _ ↔ HasLock _
    by_cases hk : k = i
    · subst hk
      rw [Function.update_self, Function.update_self]
    · rw [Function.update_of_ne hk, Function.update_of_ne hk]
      exact iff_of_eq (congrArg (· = true) (holdsLock_notify s.tasks k).symm)
  · rw [hinv.running]
    split_ifs <;> omega

theorem popDatagram (h : Wakes s) (hp : s.tasks[i]? = some (.popHolds false)) :
    Wakes (s.popDatagram i) := by
  unfold State.popDatagram
  rcases hqueue : s.clientData.datagramQueue with _ | ⟨datagram, queue⟩
  · rw [ClientData.popDatagramNoWait_nil hqueue]
    refine ⟨?_, fun _ hne => absurd hqueue hne⟩
    show Table.Owns none HasLock fun j => (s.tasks.set i .popWaits)[j]?
    rw [getElem?_set_eq hp]
    exact h.release hp rfl rfl
  · rw [ClientData.popDatagramNoWait_cons hqueue]
    refine h.move (q := .generator) hp (by rintro ⟨⟩) (by rintro ⟨⟩) rfl (fun _ => ?_)
      (h.release hp rfl rfl)
    rw [hqueue]
    rintro ⟨⟩

/-- **Step lemma.** -/
theorem step {a : Action D} (h : Wakes s) (hinv : Inv s) (hs : step s a = some s') : Wakes s' := by
  cases a with
  | handler datagram raises =>
    cases hs
    exact h.handler hinv datagram
  | acquire i =>
    simp only [DatagramServer.step] at hs
    split at hs
    · cases hs
    · next hfree =>
      have hfree := not_not.1 hfree
      split at hs <;> cases hs
      · next hp => exact h.acquire (q := .pushHolds) hp hfree (by rintro ⟨⟩) (fun _ => rfl) rfl
      · next hp => exact h.acquire (q := .popHolds false) hp hfree (by rintro ⟨⟩) (by rintro ⟨⟩) rfl
      · next cancelled hp =>
        exact h.acquire (q := .popHolds cancelled) hp hfree (by rintro ⟨⟩) (by rintro ⟨⟩) rfl
  | resume i raises =>
    simp only [DatagramServer.step] at hs
    split at hs <;> cases hs
    · next hp => exact h.pushNotifies hinv hp
    · next hp =>
      refine (h.runs hp rfl (hinv.quiet fun hrunning => ?_)).clientCoroutine
      rw [hinv.state_of_pending hp rfl] at hrunning
      cases hrunning
    · next hp => exact h.popDatagram hp
    · next hp =>
      exact h.move (q := .generator) hp (by rintro ⟨⟩) (by rintro ⟨⟩) rfl id (h.release hp rfl rfl)
  | yields i valid =>
    simp only [DatagramServer.step] at hs
    split at hs <;> cases hs
    · next hp => exact h.go hp (by rintro ⟨⟩) rfl rfl
    · next hp => cases valid <;> exact h.go hp (by rintro ⟨⟩) rfl rfl
  | stops i =>
    simp only [DatagramServer.step] at hs
    split at hs <;> cases hs
    · next hp =>
      exact (h.runs hp rfl (hinv.quiet fun _ => ⟨i, _, hp, rfl, by rintro ⟨⟩⟩)).clientCoroutineEnd
    · next hp =>
      exact (h.runs hp rfl (hinv.quiet fun _ => ⟨i, _, hp, rfl, by rintro ⟨⟩⟩)).clientCoroutineEnd
  | timeout i =>
    simp only [DatagramServer.step] at hs
    split at hs <;> cases hs
    · next hp => exact h.go hp (by rintro ⟨⟩) rfl rfl
    · next hp => exact h.go hp (by rintro ⟨⟩) rfl rfl
    · next hp => exact h.go hp (by rintro ⟨⟩) rfl rfl
  | collect =>
    simp only [DatagramServer.step] at hs
    split at hs <;> cases hs
    next hall =>
    refine ⟨fun j => iff_of_false (by rintro ⟨⟩) ?_, fun hmem => ?_⟩
    · show ¬ HasLock s.tasks[j]?
      cases hj : s.tasks[j]? with
      | none => rintro ⟨⟩
      | some p =>
        rw [hall p (List.mem_of_getElem? hj)]
        exact not_hasLock rfl
    · cases hall _ hmem

end Wakes

/-- A push counts for the client coroutine that it may notify, too. -/
def Phase.rank : Phase → ℕ
  | .pushAcquires => 4
  | .pushHolds => 3
  | .popAcquires | .popReacquires _ => 2
  | .popHolds _ | .pending => 1
  | .anext | .generator | .popWaits | .ended => 0

/-- How many steps the event loop may still take by itself. -/
def State.rank (s : State D) : ℕ := (s.tasks.map Phase.rank).sum

theorem sum_rank_set (h : ts[i]? = some p) (q : Phase) :
    ((ts.set i q).map Phase.rank).sum + p.rank = (ts.map Phase.rank).sum + q.rank := by
  induction ts generalizing i with
  | nil => cases h
  | cons t ts ih =>
    cases i with
    | zero =>
      cases h
      simp only [List.set_cons_zero, List.map_cons, List.sum_cons]
      omega
    | succ i =>
      have hrest := ih (i := i) h
      simp only [List.set_cons_succ, List.map_cons, List.sum_cons]
      omega

/-- One client coroutine at most is notified. -/
theorem sum_rank_notify (ts : List Phase) :
    ((notify ts).map Phase.rank).sum ≤ (ts.map Phase.rank).sum + 2 := by
  induction ts with
  | nil => exact Nat.zero_le _
  | cons t ts ih =>
    cases t <;> simp only [notify, List.map_cons, List.sum_cons, Phase.rank] <;> omega

/-- A client coroutine that begins calls the callback, and awaits the generator that it returns. -/
theorem tasks_clientCoroutine (hstate : s.clientData.state = some .taskPending)
    (hqueue : s.clientData.datagramQueue ≠ []) :
    (s.clientCoroutine i false).tasks = s.tasks.set i .anext := by
  have hmark : s.clientData.markRunning = some { s.clientData with state := some .taskRunning } :=
    if_neg (not_not.2 hstate)
  obtain ⟨datagram, queue, hq⟩ := List.exists_cons_of_ne_nil hqueue
  unfold State.clientCoroutine
  rw [hmark]
  simp only [Bool.false_eq_true, if_false, ClientData.popDatagramNoWait_cons (c := { s.clientData
    with state := some .taskRunning }) hq]
  rfl

/-- A task goes on. -/
theorem rank_move (hp : s.tasks[i]? = some p) (htasks : s'.tasks = s.tasks.set i q) :
    s'.rank + p.rank = s.rank + q.rank := by
  unfold State.rank
  rw [htasks]
  exact sum_rank_set hp q

theorem rank_handlerCheck (hp : s.tasks[i]? = some p) :
    (s.handlerCheck i false).rank + p.rank = s.rank := by
  rcases hstarts : s.startsClient with _ | _
  · rw [handlerCheck_of_not_starts hstarts]
    exact rank_move (q := .ended) hp rfl
  · rw [handlerCheck_of_starts hstarts]
    refine rank_move (q := .anext) hp ?_
    rw [tasks_clientCoroutine]
    · exact List.set_set ..
    · rfl
    · exact List.length_pos_iff.1 (of_decide_eq_true hstarts).2

/-- What a new handler costs. -/
theorem rank_handler (s : State D) (datagram : D) :
    (s.handler datagram false).rank ≤ s.rank + 4 := by
  have hpushed : ((s.tasks ++ [Phase.pushAcquires]).map Phase.rank).sum = s.rank + 4 := by
    rw [List.map_append, List.sum_append]
    rfl
  unfold State.handler
  dsimp only
  split_ifs
  · have hcheck := rank_handlerCheck (s := { s with
      clientData := s.clientData.append datagram
      tasks := s.tasks ++ [.pushAcquires]
      pushed := s.pushed ++ [datagram] }) (p := .pushAcquires) List.getElem?_concat_length
    exact (Nat.le_of_add_right_le (Nat.le_of_eq hcheck)).trans (Nat.le_of_eq hpushed)
  · exact Nat.le_of_eq hpushed

theorem rank_popDatagram (hp : s.tasks[i]? = some p) :
    (s.popDatagram i).rank + p.rank = s.rank := by
  unfold State.popDatagram
  rcases s.clientData.popDatagramNoWait with _ | ⟨datagram, clientData⟩
  · exact rank_move (q := .popWaits) hp rfl
  · exact rank_move (q := .generator) hp rfl

/-- **What the event loop does by itself lowers the rank.** -/
theorem rank_lt {a : Action D} (h : Inv s) (ha : a.isForced = true) (hs : step s a = some s') :
    s'.rank < s.rank := by
  have hmove : ∀ (i : ℕ) (p q : Phase), s.tasks[i]? = some p → s'.tasks = s.tasks.set i q →
      q.rank < p.rank → s'.rank < s.rank := by
    intro i p q hp htasks hlt
    have hrank := rank_move hp htasks
    omega
  cases a with
  | acquire i =>
    simp only [step] at hs
    split at hs
    · cases hs
    · split at hs <;> cases hs
      · next hp => exact hmove i _ .pushHolds hp rfl (by decide)
      · next hp => exact hmove i _ (.popHolds false) hp rfl (by decide)
      · next cancelled hp => exact hmove i _ (.popHolds cancelled) hp rfl Nat.one_lt_two
  | resume i raises =>
    cases raises with
    | true => cases ha
    | false =>
      simp only [step] at hs
      split at hs <;> cases hs
      · next hp =>
        -- the notification costs two
        have hcheck := rank_handlerCheck (s := { s with
          tasks := notify s.tasks, clientData := s.clientData.release })
          (getElem?_notify hp (by rintro ⟨⟩))
        have hnotify : _ ≤ s.rank + 2 := sum_rank_notify s.tasks
        show State.rank (State.handlerCheck _ i false) < s.rank
        simp only [Phase.rank, State.rank] at hcheck hnotify ⊢
        omega
      · next hp =>
        have hstate := h.state_of_pending hp rfl
        exact hmove i _ .anext hp (tasks_clientCoroutine hstate (h.hasData hstate)) Nat.zero_lt_one
      · next hp =>
        have hrank := rank_popDatagram hp
        simp only [Phase.rank] at hrank
        omega
      · next hp => exact hmove i _ .generator hp rfl Nat.zero_lt_one
  | _ => cases ha

/-! ## No datagram is forgotten -/

end DatagramServer

end EasyNetwork
