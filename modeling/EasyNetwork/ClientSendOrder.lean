/-
  What the calls of `send_packet()` put on the stream.

  A step goes on with one call (`Effect`), and every step keeps `Inv`: the call that is sending is the
  last one of those that have reached the transport.

  `send_packet_whole`: in every interleaving, also with cancellations and exceptions, the packets are
  on the stream one after the other, in the order of the calls, each of them as a beginning of its
  data, and whole if its call has returned.
-/
import EasyNetwork.AbruptClose
import EasyNetwork.ClientSend

namespace EasyNetwork

namespace ClientSend

variable {Q : Type} {generate : Q → Except String (List Bytes)} {s s' : State Q} {n : ℕ}
  {p : Phase Q}

open Closing (LockEffect)

namespace Phase

/-- The call has the lock. -/
def holdsLock : Phase Q → Bool
  | .connecting _ | .sending .. | .sendingEof => true
  | _ => false

/-- The call is inside the send guard. -/
def inGuard : Phase Q → Bool
  | .sending .. | .sendingEof => true
  | _ => false

/-- The packet of a call that is sending, or has ended. -/
def sends? : Phase Q → Option Q
  | .sending packet _ | .ended (.sendPacket packet) _ => some packet
  | _ => none

theorem holdsLock_of_inGuard (h : p.inGuard = true) : p.holdsLock = true := by
  cases p <;> first | rfl | cases h

end Phase

/-- What the call `n` does with the stream, when it goes on to the phase `p`. -/
inductive Moves (generate : Q → Except String (List Bytes)) (s : State Q) (n : ℕ) :
    Phase Q → List (ℕ × Bytes) → Prop
  | nothing {q : Phase Q} : (∀ packet rest, q ≠ .sending packet rest) →
      (∀ packet, q = .ended (.sendPacket packet) .returned → s.phase n = .sending packet []) →
      Moves generate s n q s.accepted
  | start {packet chunks} : s.phase n = .connecting (.sendPacket packet) → s.eofSent = false →
      generate packet = .ok chunks →
      Moves generate s n (.sending packet chunks.flatten) (s.accepted ++ [(n, [])])
  | more {packet rest k} : s.phase n = .sending packet rest → s.eof = false → k ≤ rest.length →
      Moves generate s n (.sending packet (rest.drop k))
        (s.accepted.map (State.extend n (rest.take k)))

/-- The call `n` goes on to the phase `p`. -/
structure Effect (generate : Q → Except String (List Bytes)) (s s' : State Q) (n : ℕ)
    (p : Phase Q) : Prop where
  lock : LockEffect s.lock s'.lock n
  granted : ∀ m ∈ s.lock.granted, m ∈ s'.lock.granted
  phase : s'.phase = Function.update s.phase n p
  notEnded : ∀ method outcome, s.phase n ≠ .ended method outcome
  sends : ∀ packet, (s.phase n).sends? = some packet → p.sends? = some packet
  holds : p.holdsLock = true → s'.lock.status n = .holding
  enters : p.inGuard = true → s.held = false ∨ (s.phase n).inGuard = true
  held : s'.held = (p.inGuard || (s.held && !(s.phase n).inGuard))
  connecting : ∀ method, p = .connecting method → ∀ m ∈ s.lock.granted, m < n
  busy : ∀ method, p = .ended method .busyResource →
    s.held = true ∧ s.phase n = .connecting method
  moves : Moves generate s n p s'.accepted
  eof : s.eof = true → s'.eof = true
  eofSent : s'.eofSent = s.eofSent ∨ s'.eofSent = true ∧ s.phase n = .sendingEof

theorem Effect.phase_self (e : Effect generate s s' n p) : s'.phase n = p := by
  rw [e.phase, Function.update_self]

theorem Effect.phase_ne (e : Effect generate s s' n p) {m : ℕ} (hm : m ≠ n) :
    s'.phase m = s.phase m := by
  rw [e.phase, Function.update_of_ne hm]

/-- The calls that have reached the transport are there one after the other. -/
structure Inv (generate : Q → Except String (List Bytes)) (s : State Q) : Prop where
  lock : FairLock.Inv s.lock
  fresh : ∀ n, s.lock.calls ≤ n → s.phase n = .notCalled
  holds : ∀ n, (s.phase n).holdsLock = true → s.lock.status n = .holding
  held_iff : s.held = true ↔ ∃ n, (s.phase n).inGuard = true
  granted : ∀ x ∈ s.accepted, x.1 ∈ s.lock.granted
  sorted : (s.accepted.map Prod.fst).Pairwise (· < ·)
  connecting : ∀ n method, s.phase n = .connecting method → ∀ x ∈ s.accepted, x.1 < n
  sending : ∀ n packet rest, s.phase n = .sending packet rest → ∃ before b chunks,
    s.accepted = before ++ [(n, b)] ∧ generate packet = .ok chunks ∧ chunks.flatten = b ++ rest
  part : ∀ x ∈ s.accepted, ∃ packet chunks, (s.phase x.1).sends? = some packet ∧
    generate packet = .ok chunks ∧ x.2 <+: chunks.flatten
  whole : ∀ n packet, s.phase n = .ended (.sendPacket packet) .returned →
    ∃ chunks, generate packet = .ok chunks ∧ (n, chunks.flatten) ∈ s.accepted
  notBusy : ∀ n method, s.phase n ≠ .ended method .busyResource
  eofSent : s.eofSent = true → ∀ n packet rest, s.phase n ≠ .sending packet rest

theorem extend_fst (call : ℕ) (bytes : Bytes) (x : ℕ × Bytes) :
    (State.extend call bytes x).1 = x.1 := by
  unfold State.extend
  split <;> rfl

theorem map_fst_extend (call : ℕ) (bytes : Bytes) (xs : List (ℕ × Bytes)) :
    (xs.map (State.extend call bytes)).map Prod.fst = xs.map Prod.fst := by
  rw [List.map_map]
  exact List.map_congr_left fun x _ => extend_fst call bytes x

/-- Of the calls in order, only the last one is extended. -/
theorem map_extend_concat {before : List (ℕ × Bytes)} {b bytes : Bytes}
    (h : ((before ++ [(n, b)]).map Prod.fst).Pairwise (· < ·)) :
    (before ++ [(n, b)]).map (State.extend n bytes) = before ++ [(n, b ++ bytes)] := by
  rw [List.map_append, List.pairwise_append] at h
  have hlt : ∀ x ∈ before, x.1 < n := fun x hx =>
    h.2.2 x.1 (List.mem_map_of_mem hx) n (List.mem_singleton_self n)
  have hbefore : before.map (State.extend n bytes) = before := by
    conv_rhs => rw [← List.map_id before]
    exact List.map_congr_left fun x hx => if_neg (hlt x hx).ne
  rw [List.map_append, hbefore]
  simp only [List.map_cons, List.map_nil, State.extend, if_true]

namespace Inv

theorem init : Inv generate {} := by
  constructor <;> simp [FairLock.Inv.init, Phase.holdsLock, Phase.inGuard]

/-- Two calls do not have the lock at the same time. -/
theorem unique (h : Inv generate s) {m : ℕ} (hm : (s.phase m).holdsLock = true)
    (hn : (s.phase n).holdsLock = true) : m = n :=
  h.lock.holding_unique m n (h.holds m hm) (h.holds n hn)

section
variable (h : Inv generate s) (e : Effect generate s s' n p)
include h e

/-- While `n` uses the stream, the other calls do not have the lock. -/
theorem not_holdsLock (hn : (s.phase n).holdsLock = true) {m : ℕ} (hm : m ≠ n) :
    (s'.phase m).holdsLock = false := by
  rw [e.phase_ne hm, Bool.eq_false_iff]
  exact fun hc => hm (h.unique hc hn)

theorem part_of_mem {x : ℕ × Bytes} (hx : x ∈ s.accepted) : ∃ packet chunks,
    (s'.phase x.1).sends? = some packet ∧ generate packet = .ok chunks ∧
      x.2 <+: chunks.flatten := by
  obtain ⟨packet, chunks, hsends, hchunks, hpart⟩ := h.part x hx
  refine ⟨packet, chunks, ?_, hchunks, hpart⟩
  by_cases hn : x.1 = n
  · rw [hn] at hsends ⊢
    rw [e.phase_self]
    exact e.sends packet hsends
  · rw [e.phase_ne hn]
    exact hsends

theorem held_step : s'.held = true ↔ ∃ n, (s'.phase n).inGuard = true := by
  rw [e.held, Bool.or_eq_true, Bool.and_eq_true, Bool.not_eq_true']
  constructor
  · rintro (hp | ⟨hheld, hn⟩)
    · exact ⟨n, e.phase_self ▸ hp⟩
    · obtain ⟨m, hm⟩ := h.held_iff.1 hheld
      have hmn : m ≠ n := by
        rintro rfl
        rw [hn] at hm
        cases hm
      exact ⟨m, by rw [e.phase_ne hmn]; exact hm⟩
  · rintro ⟨m, hm⟩
    by_cases hmn : m = n
    · subst hmn
      exact .inl (e.phase_self ▸ hm)
    · rw [e.phase_ne hmn] at hm
      refine .inr ⟨h.held_iff.2 ⟨m, hm⟩, ?_⟩
      by_contra hn
      exact hmn (h.unique (Phase.holdsLock_of_inGuard hm)
        (Phase.holdsLock_of_inGuard (by simpa using hn)))

/-- The stream after the step. -/
theorem stream_step : (s'.accepted.map Prod.fst).Pairwise (· < ·) ∧
    (∀ m method, s'.phase m = .connecting method → ∀ x ∈ s'.accepted, x.1 < m) ∧
    (∀ m packet rest, s'.phase m = .sending packet rest → ∃ before b chunks,
      s'.accepted = before ++ [(m, b)] ∧ generate packet = .ok chunks ∧
        chunks.flatten = b ++ rest) ∧
    (∀ x ∈ s'.accepted, x.1 ∈ s'.lock.granted) ∧
    (∀ x ∈ s'.accepted, ∃ packet chunks, (s'.phase x.1).sends? = some packet ∧
      generate packet = .ok chunks ∧ x.2 <+: chunks.flatten) ∧
    (∀ m packet, s'.phase m = .ended (.sendPacket packet) .returned →
      ∃ chunks, generate packet = .ok chunks ∧ (m, chunks.flatten) ∈ s'.accepted) := by
  have hself := e.phase_self
  have hother : ∀ m, m ≠ n → s'.phase m = s.phase m := fun m hm => e.phase_ne hm
  generalize haccepted : s'.accepted = accepted
  have hmoves := e.moves
  rw [haccepted] at hmoves
  cases hmoves with
  | nothing hsending hreturned =>
    refine ⟨h.sorted, fun m method hm x hx => ?_, fun m packet rest hm => ?_,
      fun x hx => e.granted _ (h.granted x hx), fun x hx => ?_, fun m packet hm => ?_⟩
    · by_cases hmn : m = n
      · rw [hmn]
        rw [hmn, hself] at hm
        exact e.connecting method hm _ (h.granted x hx)
      · rw [hother m hmn] at hm
        exact h.connecting m method hm x hx
    · by_cases hmn : m = n
      · rw [hmn, hself] at hm
        exact absurd hm (hsending packet rest)
      · rw [hother m hmn] at hm
        exact h.sending m packet rest hm
    · exact part_of_mem h e hx
    · by_cases hmn : m = n
      · rw [hmn, hself] at hm
        obtain ⟨before, b, chunks, haccepted, hchunks, hflatten⟩ :=
          h.sending n packet [] (hreturned packet hm)
        refine ⟨chunks, hchunks, ?_⟩
        rw [hmn, haccepted, hflatten, List.append_nil]
        exact List.mem_append_right _ (List.mem_singleton_self _)
      · rw [hother m hmn] at hm
        exact h.whole m packet hm
  | @start packet chunks hphase _ hchunks =>
    have hlt := h.connecting n _ hphase
    have hholds : (s.phase n).holdsLock = true := by rw [hphase]; rfl
    have hnone : ∀ m, m ≠ n → (s'.phase m).holdsLock = false := fun m hm =>
      not_holdsLock h e hholds hm
    have hmem : n ∈ s'.lock.granted := (e.lock.inv.granted_iff n).2 (.inl (e.holds rfl))
    refine ⟨?_, fun m method hm => ?_, fun m packet' rest hm => ?_, fun x hx => ?_, fun x hx => ?_,
      fun m packet' hm => ?_⟩
    · rw [List.map_append]
      refine FairLock.Inv.pairwise_concat h.sorted fun m hm => ?_
      obtain ⟨x, hx, rfl⟩ := List.mem_map.1 hm
      exact hlt x hx
    · by_cases hmn : m = n
      · rw [hmn, hself] at hm
        cases hm
      · exact absurd (hnone m hmn) (by rw [hm]; nofun)
    · by_cases hmn : m = n
      · rw [hmn, hself] at hm
        cases hm
        exact ⟨s.accepted, [], chunks, by rw [hmn], hchunks, rfl⟩
      · exact absurd (hnone m hmn) (by rw [hm]; nofun)
    · rcases List.mem_append.1 hx with hx | hx
      · exact e.granted _ (h.granted x hx)
      · rw [List.mem_singleton.1 hx]
        exact hmem
    · rcases List.mem_append.1 hx with hx | hx
      · exact part_of_mem h e hx
      · rw [List.mem_singleton.1 hx]
        exact ⟨packet, chunks, by rw [hself]; rfl, hchunks, List.nil_prefix⟩
    · by_cases hmn : m = n
      · rw [hmn, hself] at hm
        cases hm
      · rw [hother m hmn] at hm
        obtain ⟨chunks', h1, h2⟩ := h.whole m packet' hm
        exact ⟨chunks', h1, List.mem_append_left _ h2⟩
  | @more packet rest k hphase _ hk =>
    have hholds : (s.phase n).holdsLock = true := by rw [hphase]; rfl
    have hnone : ∀ m, m ≠ n → (s'.phase m).holdsLock = false := fun m hm =>
      not_holdsLock h e hholds hm
    obtain ⟨before, b, chunks, hbefore, hchunks, hflatten⟩ := h.sending n packet rest hphase
    have hsorted := h.sorted
    rw [hbefore] at hsorted
    have hmap : s.accepted.map (State.extend n (rest.take k)) =
        before ++ [(n, b ++ rest.take k)] := by
      rw [hbefore, map_extend_concat hsorted]
    have hdata : chunks.flatten = b ++ rest.take k ++ rest.drop k := by
      rw [hflatten, List.append_assoc, List.take_append_drop]
    have hmem : ∀ x ∈ before, x ∈ s.accepted := fun x hx => by
      rw [hbefore]
      exact List.mem_append_left _ hx
    have hlast : (n, b) ∈ s.accepted := by
      rw [hbefore]
      exact List.mem_append_right _ (List.mem_singleton_self _)
    have hpacket : (s'.phase n).sends? = some packet := by rw [hself]; rfl
    refine ⟨by rw [map_fst_extend]; exact h.sorted, fun m method hm => ?_,
      fun m packet' rest' hm => ?_, fun x hx => ?_, fun x hx => ?_, fun m packet' hm => ?_⟩
    · by_cases hmn : m = n
      · rw [hmn, hself] at hm
        cases hm
      · exact absurd (hnone m hmn) (by rw [hm]; nofun)
    · by_cases hmn : m = n
      · rw [hmn, hself] at hm
        cases hm
        exact ⟨before, _, chunks, by rw [hmap, hmn], hchunks, hdata⟩
      · exact absurd (hnone m hmn) (by rw [hm]; nofun)
    · obtain ⟨y, hy, rfl⟩ := List.mem_map.1 hx
      rw [extend_fst]
      exact e.granted _ (h.granted y hy)
    · rw [hmap] at hx
      rcases List.mem_append.1 hx with hx | hx
      · exact part_of_mem h e (hmem x hx)
      · rw [List.mem_singleton.1 hx]
        exact ⟨packet, chunks, hpacket, hchunks, _, hdata.symm⟩
    · by_cases hmn : m = n
      · rw [hmn, hself] at hm
        cases hm
      · rw [hother m hmn] at hm
        obtain ⟨chunks', h1, h2⟩ := h.whole m packet' hm
        refine ⟨chunks', h1, List.mem_map.2 ⟨_, h2, ?_⟩⟩
        exact if_neg hmn

/-- After `send_eof()`, no call sends: the one that has sent it had the guard, and the endpoint refuses
    the later ones. -/
theorem eofSent_step (hsent : s'.eofSent = true) (m : ℕ) (packet : Q) (rest : Bytes) :
    s'.phase m ≠ .sending packet rest := by
  intro hm
  by_cases hmn : m = n
  · rw [hmn, e.phase_self] at hm
    have hmoves := e.moves
    generalize s'.accepted = accepted at hmoves
    rcases e.eofSent with heq | ⟨-, hphase⟩
    · cases hmoves with
      | nothing hsending _ => exact hsending packet rest hm
      | start _ hopen _ => exact absurd ((hsent.symm.trans heq).trans hopen) (by rintro ⟨⟩)
      | more hphase _ _ => exact h.eofSent (heq.symm.trans hsent) n _ _ hphase
    · cases hmoves with
      | nothing hsending _ => exact hsending packet rest hm
      | start hconnecting _ _ => cases hphase.symm.trans hconnecting
      | more hsending _ _ => cases hphase.symm.trans hsending
  · rw [e.phase_ne hmn] at hm
    rcases e.eofSent with heq | ⟨-, hphase⟩
    · exact h.eofSent (heq.symm.trans hsent) m packet rest hm
    · exact hmn (h.unique (by rw [hm]; rfl) (by rw [hphase]; rfl))

/-- **Step lemma.** -/
theorem of_effect : Inv generate s' := by
  have hself := e.phase_self
  have hother : ∀ m, m ≠ n → s'.phase m = s.phase m := fun m hm => e.phase_ne hm
  obtain ⟨hsorted, hconnecting, hsending, hgranted, hpart, hwhole⟩ := stream_step h e
  refine ⟨e.lock.inv, fun m hm => ?_, fun m hm => ?_, held_step h e, hgranted, hsorted, hconnecting,
    hsending, hpart, hwhole, fun m method hm => ?_, fun hm => eofSent_step h e hm⟩
  · have hmn : m ≠ n := by
      rintro rfl
      exact absurd e.lock.lt (Nat.not_lt.2 hm)
    rw [hother m hmn]
    exact h.fresh m (e.lock.calls.trans hm)
  · by_cases hmn : m = n
    · rw [hmn]
      rw [hmn, hself] at hm
      exact e.holds hm
    · rw [e.lock.others m hmn]
      rw [hother m hmn] at hm
      exact h.holds m hm
  · by_cases hmn : m = n
    · rw [hmn, hself] at hm
      obtain ⟨hheld, hphase⟩ := e.busy method hm
      -- another call would have the lock too
      obtain ⟨k, hk⟩ := h.held_iff.1 hheld
      have hkn := h.unique (Phase.holdsLock_of_inGuard hk) (n := n) (by rw [hphase]; rfl)
      rw [hkn, hphase] at hk
      cases hk
    · rw [hother m hmn] at hm
      exact h.notBusy m method hm

end

end Inv

/-! ## Every step goes on with one call -/

/-- The calls that have got the lock, after a step of the lock. -/
theorem granted_step {lock lock' : FairLock.State} {a : FairLock.Action}
    (h : FairLock.step lock a = some lock') : ∀ m ∈ lock.granted, m ∈ lock'.granted := by
  intro m hm
  cases a with
  | acquire =>
    rw [FairLock.step] at h
    split at h <;> cases h
    · exact hm
    · exact List.mem_append_left _ hm
  | release call =>
    rw [FairLock.step] at h
    split_ifs at h
    split at h <;> cases h <;> exact hm
  | cancel call =>
    rw [FairLock.step] at h
    split at h <;> cases h
    exact hm
  | wake call =>
    rw [FairLock.step] at h
    split at h
    · split_ifs at h
      cases h
      exact List.mem_append_left _ hm
    · cases h
  | throw call =>
    rw [FairLock.step] at h
    split at h <;> cases h
    exact hm

theorem granted_release (lock : FairLock.State) (call : ℕ) : ∀ m ∈ lock.granted,
    m ∈ ((FairLock.step lock (.release call)).getD lock).granted := by
  intro m hm
  rcases hstep : FairLock.step lock (.release call) with _ | lock'
  · exact hm
  · exact granted_step hstep m hm

namespace Inv
variable {method : Method Q} {outcome : Outcome}

theorem lt_calls (h : Inv generate s) (hn : s.phase n ≠ .notCalled) : n < s.lock.calls := by
  by_contra hle
  exact hn (h.fresh n (Nat.not_lt.1 hle))

theorem lockEffect (h : Inv generate s) (hn : s.phase n ≠ .notCalled) :
    LockEffect s.lock s.lock n := LockEffect.refl h.lock (h.lt_calls hn)

/-- A call that has the lock ends; `s₁` is what the endpoint has changed before. -/
theorem effect_leave {s₁ : State Q} (h : Inv generate s) (hn : (s.phase n).holdsLock = true)
    (hlock : s₁.lock = s.lock) (hphase : s₁.phase = s.phase) (haccepted : s₁.accepted = s.accepted)
    (hheld : s₁.held = (s.held && !(s.phase n).inGuard)) (heof : s₁.eof = s.eof)
    (heofSent : s₁.eofSent = s.eofSent ∨ s₁.eofSent = true ∧ s.phase n = .sendingEof)
    (hsends : ∀ packet, (s.phase n).sends? = some packet → method = .sendPacket packet)
    (hbusy : outcome = .busyResource → s.held = true ∧ s.phase n = .connecting method)
    (hreturned : ∀ packet, method = .sendPacket packet → outcome = .returned →
      s.phase n = .sending packet []) :
    Effect generate s (s₁.leave n method outcome) n (.ended method outcome) where
  lock := by
    have hne : s.phase n ≠ .notCalled := by
      intro hc
      rw [hc] at hn
      cases hn
    have := (h.lockEffect hne).release
    simp only [State.leave, State.setPhase, hlock]
    exact this
  granted m hm := by
    simp only [State.leave, State.setPhase, hlock]
    exact granted_release s.lock n m hm
  phase := by simp only [State.leave, State.setPhase, hphase]
  notEnded method outcome hc := by
    rw [hc] at hn
    cases hn
  sends packet hp := by
    rw [hsends packet hp]
    rfl
  holds hp := absurd hp nofun
  enters hp := absurd hp nofun
  held := hheld
  connecting _ hp := absurd hp nofun
  busy method' hp := by
    cases hp
    exact hbusy rfl
  moves := by
    have hmoves : Moves generate s n (.ended method outcome) s.accepted := by
      refine .nothing nofun fun packet hp => ?_
      cases hp
      exact hreturned packet rfl rfl
    simp only [State.leave, State.setPhase, haccepted]
    exact hmoves
  eof hc := by
    show s₁.eof = true
    rw [heof]
    exact hc
  eofSent := heofSent

/-- A call gets the lock. -/
theorem effect_connecting {lock : FairLock.State}
    (hlock : LockEffect s.lock lock n) (hgranted : ∀ m ∈ s.lock.granted, m ∈ lock.granted)
    (hholding : lock.status n = .holding) (hlt : ∀ m ∈ s.lock.granted, m < n)
    (hn : s.phase n = .notCalled ∨ s.phase n = .waitLock method) :
    Effect generate s ({ s with lock }.setPhase n (.connecting method)) n
      (.connecting method) where
  lock := hlock
  granted := hgranted
  phase := rfl
  notEnded _ _ hc := by rcases hn with hn | hn <;> rw [hn] at hc <;> cases hc
  sends _ hp := by rcases hn with hn | hn <;> rw [hn] at hp <;> cases hp
  holds _ := hholding
  enters hp := absurd hp nofun
  held := by rcases hn with hn | hn <;> rw [hn] <;> exact (Bool.and_true _).symm
  connecting _ _ := hlt
  busy _ hp := absurd hp nofun
  moves := .nothing nofun nofun
  eof := id
  eofSent := .inl rfl

/-- A call waits for the lock, or is cancelled while it waits. -/
theorem effect_wait {lock : FairLock.State}
    (hlock : LockEffect s.lock lock n) (hgranted : ∀ m ∈ s.lock.granted, m ∈ lock.granted)
    (hn : s.phase n = .notCalled ∧ p = .waitLock method ∨
      s.phase n = .waitLock method ∧ p = .ended method .cancelled) :
    Effect generate s ({ s with lock }.setPhase n p) n p where
  lock := hlock
  granted := hgranted
  phase := rfl
  notEnded _ _ hc := by rcases hn with ⟨hn, -⟩ | ⟨hn, -⟩ <;> rw [hn] at hc <;> cases hc
  sends _ hp := by rcases hn with ⟨hn, -⟩ | ⟨hn, -⟩ <;> rw [hn] at hp <;> cases hp
  holds hp := by rcases hn with ⟨-, rfl⟩ | ⟨-, rfl⟩ <;> cases hp
  enters hp := by rcases hn with ⟨-, rfl⟩ | ⟨-, rfl⟩ <;> cases hp
  held := by rcases hn with ⟨hn, rfl⟩ | ⟨hn, rfl⟩ <;> rw [hn] <;> exact (Bool.and_true _).symm
  connecting _ hp := by rcases hn with ⟨-, rfl⟩ | ⟨-, rfl⟩ <;> cases hp
  busy _ hp := by rcases hn with ⟨-, rfl⟩ | ⟨-, rfl⟩ <;> cases hp
  moves := by
    rcases hn with ⟨-, rfl⟩ | ⟨-, rfl⟩
    · exact .nothing nofun nofun
    · exact .nothing nofun nofun
  eof := id
  eofSent := .inl rfl

/-- A call that has the lock goes on in the guard, and with the stream. -/
theorem effect_inGuard {held eof : Bool} {accepted : List (ℕ × Bytes)} (h : Inv generate s)
    (hn : (s.phase n).holdsLock = true) (hheld : held = true) (hp : p.inGuard = true)
    (hsends : ∀ packet, (s.phase n).sends? = some packet → p.sends? = some packet)
    (henters : s.held = false ∨ (s.phase n).inGuard = true) (hmoves : Moves generate s n p accepted)
    (heof : s.eof = true → eof = true) :
    Effect generate s { s with held, accepted, eof, phase := Function.update s.phase n p } n p where
  lock := by
    refine h.lockEffect fun hc => ?_
    rw [hc] at hn
    cases hn
  granted _ := id
  phase := rfl
  notEnded _ _ hc := by
    rw [hc] at hn
    cases hn
  sends := hsends
  holds _ := h.holds n hn
  enters _ := henters
  held := by rw [hp, hheld]; rfl
  connecting _ hc := by
    rw [hc] at hp
    cases hp
  busy _ hc := by
    rw [hc] at hp
    cases hp
  moves := hmoves
  eof := heof
  eofSent := .inl rfl

/-- A call that is inside the guard holds it. -/
theorem held_of_inGuard (h : Inv generate s) (hn : (s.phase n).inGuard = true) : s.held = true :=
  h.held_iff.2 ⟨n, hn⟩

theorem effect_connected (h : Inv generate s) {result : Connect}
    (hphase : s.phase n = .connecting method) :
    ∃ p, Effect generate s (s.connected generate n method result) n p := by
  have hn : (s.phase n).holdsLock = true := by rw [hphase]; rfl
  have hheld : s.held = (s.held && !(s.phase n).inGuard) := by rw [hphase]; exact (Bool.and_true _).symm
  have hend : ∀ outcome, (outcome = .busyResource → s.held = true) →
      (∀ packet, method = .sendPacket packet → outcome ≠ .returned) →
      Effect generate s (s.leave n method outcome) n (.ended method outcome) := by
    intro outcome hbusy hreturned
    refine h.effect_leave hn rfl rfl rfl hheld rfl (.inl rfl) (fun packet hp => ?_)
      (fun ho => ⟨hbusy ho, hphase⟩) fun packet hm ho => absurd ho (hreturned packet hm)
    rw [hphase] at hp
    cases hp
  unfold State.connected
  split
  · next packet =>
    unfold State.enterSendPacket
    split
    · next hc => exact ⟨_, hend _ (fun _ => hc) nofun⟩
    split
    · exact ⟨_, hend _ nofun nofun⟩
    split
    · exact ⟨_, hend _ nofun nofun⟩
    · next hheld' heofSent _ chunks hchunks =>
      refine ⟨.sending packet chunks.flatten, h.effect_inGuard hn rfl rfl (by rw [hphase]; nofun)
        (.inl (by simpa using hheld')) (.start hphase (by simpa using heofSent) hchunks) id⟩
  · unfold State.enterSendEof
    split
    · next hc => exact ⟨_, hend _ (fun _ => hc) nofun⟩
    split
    · exact ⟨_, hend _ nofun nofun⟩
    · next hheld' _ =>
      exact ⟨.sendingEof, h.effect_inGuard hn rfl rfl (by rw [hphase]; nofun)
        (.inl (by simpa using hheld')) (.nothing nofun nofun) id⟩
  · exact ⟨_, hend _ nofun nofun⟩
  · exact ⟨_, hend _ nofun nofun⟩

/-- A call inside the guard ends. -/
theorem effect_leaveGuard {s₁ : State Q} (h : Inv generate s) (hn : (s.phase n).inGuard = true)
    (hs₁ : s₁ = s ∨ s₁ = { s with eofSent := true } ∧ s.phase n = .sendingEof)
    (hsends : ∀ packet, (s.phase n).sends? = some packet → method = .sendPacket packet)
    (hbusy : outcome ≠ .busyResource)
    (hreturned : ∀ packet, method = .sendPacket packet → outcome = .returned →
      s.phase n = .sending packet []) :
    Effect generate s (s₁.leaveGuard n method outcome) n (.ended method outcome) := by
  have hheld : false = (s.held && !(s.phase n).inGuard) := by rw [hn]; exact (Bool.and_false _).symm
  rcases hs₁ with rfl | ⟨rfl, hphase⟩
  · exact h.effect_leave (Phase.holdsLock_of_inGuard hn) rfl rfl rfl hheld rfl (.inl rfl) hsends
      (fun hc => absurd hc hbusy) hreturned
  · exact h.effect_leave (Phase.holdsLock_of_inGuard hn) rfl rfl rfl hheld rfl
      (.inr ⟨rfl, hphase⟩) hsends (fun hc => absurd hc hbusy) hreturned

/-- **Every step goes on with one call.** -/
theorem step_effect (h : Inv generate s) {a : Action Q} (hs : step generate s a = some s') :
    ∃ n p, Effect generate s s' n p := by
  cases a with
  | call method =>
    rw [step, Option.map_eq_some_iff] at hs
    obtain ⟨lock, hacquire, rfl⟩ := hs
    have hcalls := FairLock.step_acquire hacquire
    have hlock : LockEffect s.lock lock s.lock.calls := LockEffect.of_step h.lock (by omega) rfl hacquire
    have hgranted := granted_step hacquire
    have hphase := h.fresh s.lock.calls le_rfl
    refine ⟨s.lock.calls, ?_⟩
    dsimp only
    split_ifs with hholding
    · exact ⟨_, effect_connecting hlock hgranted hholding
        (fun m hm => h.lock.granted_lt_calls hm) (.inl hphase)⟩
    · exact ⟨_, effect_wait hlock hgranted (.inl ⟨hphase, rfl⟩)⟩
  | wake call =>
    simp only [step] at hs
    split at hs
    · next method hphase =>
      rw [Option.map_eq_some_iff] at hs
      obtain ⟨lock, hwake, rfl⟩ := hs
      have hn : call < s.lock.calls := h.lt_calls (by rw [hphase]; rintro ⟨⟩)
      have hlock : LockEffect s.lock lock call :=
        LockEffect.of_step h.lock (hn.trans_le (FairLock.step_others hwake).1) rfl hwake
      refine ⟨call, _, effect_connecting hlock (granted_step hwake) (FairLock.step_wake hwake)
        (fun m hm => ?_) (.inr hphase)⟩
      -- the call has been waiting
      have hwaiting : call ∈ s.lock.lock.waiters := by
        rw [h.lock.waiting_iff]
        rw [FairLock.step] at hwake
        split at hwake
        · next c hc => exact ⟨c, hc⟩
        · cases hwake
      exact h.lock.granted_lt m hm call hwaiting
    · cases hs
  | connect call result =>
    simp only [step] at hs
    split at hs <;> cases hs
    next hphase => exact ⟨call, h.effect_connected hphase⟩
  | accept call n =>
    simp only [step] at hs
    split at hs
    · next packet rest hphase =>
      split_ifs at hs with hc
      cases hs
      have hn : (s.phase call).inGuard = true := by rw [hphase]; rfl
      exact ⟨call, .sending packet (rest.drop n), h.effect_inGuard (Phase.holdsLock_of_inGuard hn)
        (h.held_of_inGuard hn) rfl (by rw [hphase]; exact fun _ => id) (.inr hn) (.more hphase hc.1 hc.2.2) id⟩
    · cases hs
  | shutdown call =>
    simp only [step] at hs
    split at hs <;> cases hs
    next hphase =>
    have hn : (s.phase call).inGuard = true := by rw [hphase]; rfl
    have heffect := h.effect_inGuard (p := s.phase call) (Phase.holdsLock_of_inGuard hn)
      (h.held_of_inGuard hn) hn (fun _ => id) (.inr hn) (.nothing (by rw [hphase]; rintro _ _ ⟨⟩)
        (by rw [hphase]; rintro _ ⟨⟩)) fun _ => rfl
    rw [Function.update_eq_self] at heffect
    exact ⟨call, s.phase call, heffect⟩
  | done call raises =>
    simp only [step] at hs
    split at hs
    · next packet rest hphase =>
      have hn : (s.phase call).inGuard = true := by rw [hphase]; rfl
      split_ifs at hs with hraises hrest <;> cases hs
      · exact ⟨call, _, h.effect_leaveGuard hn (.inl rfl) (by rw [hphase]; rintro _ ⟨⟩; rfl)
          (by rintro ⟨⟩) (by rintro _ _ ⟨⟩)⟩
      · refine ⟨call, _, h.effect_leaveGuard hn (.inl rfl) (by rw [hphase]; rintro _ ⟨⟩; rfl)
          (by rintro ⟨⟩) ?_⟩
        intro packet' hm _
        cases hm
        rw [hphase, hrest]
    · next hphase =>
      have hn : (s.phase call).inGuard = true := by rw [hphase]; rfl
      split_ifs at hs with hraises <;> cases hs
      · exact ⟨call, _, h.effect_leaveGuard hn (.inl rfl) (by rw [hphase]; rintro _ ⟨⟩)
          (by rintro ⟨⟩) (by rintro _ ⟨⟩)⟩
      · exact ⟨call, _, h.effect_leaveGuard hn (.inr ⟨rfl, hphase⟩) (by rw [hphase]; rintro _ ⟨⟩)
          (by rintro ⟨⟩) (by rintro _ ⟨⟩)⟩
    · cases hs
  | throw call =>
    simp only [step] at hs
    split at hs
    · next method hphase =>
      rw [Option.map_eq_some_iff] at hs
      obtain ⟨lock, hthrow, rfl⟩ := hs
      have hn : call < s.lock.calls := h.lt_calls (by rw [hphase]; rintro ⟨⟩)
      have hgranted : ∀ m ∈ s.lock.granted, m ∈ lock.granted := by
        obtain ⟨lock₁, h1, h2⟩ := Trans.run_cons_iff.1 hthrow
        obtain ⟨lock₂, h2, h3⟩ := Trans.run_cons_iff.1 h2
        cases h3
        exact fun m hm => granted_step h2 m (granted_step h1 m hm)
      exact ⟨call, _, effect_wait (LockEffect.interrupt h.lock hn hthrow) hgranted
        (.inr ⟨hphase, rfl⟩)⟩
    · next method hphase =>
      cases hs
      have hn : (s.phase call).holdsLock = true := by rw [hphase]; rfl
      refine ⟨call, _, h.effect_leave hn rfl rfl rfl ?_ rfl (.inl rfl) (fun packet hp => ?_)
        (by rintro ⟨⟩) (by rintro _ _ ⟨⟩)⟩
      · rw [hphase]
        exact (Bool.and_true _).symm
      · rw [hphase] at hp
        cases hp
    · next packet rest hphase =>
      cases hs
      have hn : (s.phase call).inGuard = true := by rw [hphase]; rfl
      exact ⟨call, _, h.effect_leaveGuard hn (.inl rfl) (by rw [hphase]; rintro _ ⟨⟩; rfl)
        (by rintro ⟨⟩) (by rintro _ _ ⟨⟩)⟩
    · next hphase =>
      cases hs
      have hn : (s.phase call).inGuard = true := by rw [hphase]; rfl
      exact ⟨call, _, h.effect_leaveGuard hn (.inl rfl) (by rw [hphase]; rintro _ ⟨⟩)
        (by rintro ⟨⟩) (by rintro _ ⟨⟩)⟩
    · cases hs

theorem step (h : Inv generate s) {a : Action Q} (hs : ClientSend.step generate s a = some s') :
    Inv generate s' := by
  obtain ⟨n, p, e⟩ := h.step_effect hs
  exact h.of_effect e

/-- **Run lemma.** -/
theorem run {as : List (Action Q)} (h : Trans.run (ClientSend.step generate) {} as = some s) :
    Inv generate s :=
  Trans.run_inv (fun _ _ _ h hs => h.step hs) init h

/-- A step adds bytes at the end of the stream, and none after its write end has been closed. -/
theorem exists_append (h : Inv generate s) {a : Action Q}
    (hs : ClientSend.step generate s a = some s') : ∃ bytes, s'.stream = s.stream ++ bytes ∧
      (s.eof = true → s'.eof = true ∧ bytes = []) := by
  obtain ⟨n, p, e⟩ := h.step_effect hs
  unfold State.stream
  generalize haccepted : s'.accepted = accepted
  have hmoves := e.moves
  rw [haccepted] at hmoves
  cases hmoves with
  | nothing _ _ => exact ⟨[], (List.append_nil _).symm, fun hc => ⟨e.eof hc, rfl⟩⟩
  | start _ _ _ =>
    refine ⟨[], ?_, fun hc => ⟨e.eof hc, rfl⟩⟩
    rw [List.flatMap_append]
    rfl
  | @more packet rest k hphase heof _ =>
    obtain ⟨before, b, chunks, hbefore, -, -⟩ := h.sending n packet rest hphase
    have hsorted := h.sorted
    rw [hbefore] at hsorted
    refine ⟨rest.take k, ?_, fun hc => absurd (heof.symm.trans hc) nofun⟩
    rw [hbefore, map_extend_concat hsorted, List.flatMap_append, List.flatMap_append,
      List.append_assoc]
    simp only [List.flatMap_cons, List.flatMap_nil, List.append_nil]

/-- Nothing is added to the stream after `send_eof()`: no call sends, and the endpoint refuses to begin. -/
theorem stream_of_eofSent {as : List (Action Q)} (h : Inv generate s) (hsent : s.eofSent = true)
    (hrun : Trans.run (ClientSend.step generate) s as = some s') : s'.stream = s.stream := by
  refine (Trans.run_inv (I := fun t => Inv generate t ∧ t.eofSent = true ∧ t.stream = s.stream)
    (fun t a t' ht hs => ?_) ⟨h, hsent, rfl⟩ hrun).2.2
  obtain ⟨hinv, hsent, hstream⟩ := ht
  obtain ⟨n, p, e⟩ := hinv.step_effect hs
  refine ⟨hinv.of_effect e, e.eofSent.elim (·.trans hsent) And.left, ?_⟩
  rw [← hstream]
  unfold State.stream
  generalize haccepted : t'.accepted = accepted
  have hmoves := e.moves
  rw [haccepted] at hmoves
  cases hmoves with
  | nothing _ _ => rfl
  | start _ hopen _ => exact absurd (hsent.symm.trans hopen) (by rintro ⟨⟩)
  | more hphase _ _ => exact absurd hphase (hinv.eofSent hsent n _ _)

end Inv

/-- **Packets go out whole and in the order of the calls**, whatever calls are cancelled or fail. -/
theorem send_packet_whole {as : List (Action Q)} (h : Trans.run (step generate) {} as = some s) :
    (s.accepted.map Prod.fst).Pairwise (· < ·) ∧
    (∀ x ∈ s.accepted, ∃ packet chunks, (s.phase x.1).sends? = some packet ∧
      generate packet = .ok chunks ∧ x.2 <+: chunks.flatten) ∧
    (∀ n packet rest, s.phase n = .sending packet rest → ∃ before b chunks,
      s.accepted = before ++ [(n, b)] ∧ generate packet = .ok chunks ∧ chunks.flatten = b ++ rest) ∧
    (∀ n packet, s.phase n = .ended (.sendPacket packet) .returned →
      ∃ chunks, generate packet = .ok chunks ∧ (n, chunks.flatten) ∈ s.accepted) ∧
    (∀ n method, s.phase n ≠ .ended method .busyResource) ∧
    (s.eofSent = true → ∀ bs s', Trans.run (step generate) s bs = some s' →
      s'.stream = s.stream) := by
  have hi := Inv.run h
  exact ⟨hi.sorted, hi.part, hi.sending, hi.whole, hi.notBusy,
    fun hsent bs s' hrun => hi.stream_of_eofSent hsent hrun⟩

/-- The first call is cancelled after one byte, while the second one waits: this one sends its packet
    behind the part of the first. -/
theorem send_packet_torn :
    let generate : Bytes → Except String (List Bytes) := fun packet => .ok [packet, [10]]
    ∃ s, Trans.run (step generate) {} [.call (.sendPacket [65]), .connect 0 .connected,
      .call (.sendPacket [66]), .accept 0 1, .throw 0, .wake 1, .connect 1 .connected, .accept 1 2,
      .done 1 false] = some s ∧ s.stream = [65, 66, 10] ∧
      s.phase 1 = .ended (.sendPacket [66]) .returned ∧ (1, [66, 10]) ∈ s.accepted := by
  intro generate
  obtain ⟨s, hs⟩ : ∃ s, Trans.run (step generate) {} [.call (.sendPacket [65]),
      .connect 0 .connected, .call (.sendPacket [66]), .accept 0 1, .throw 0, .wake 1,
      .connect 1 .connected, .accept 1 2, .done 1 false] = some s := ⟨_, rfl⟩
  obtain ⟨-, -, -, hwhole, -, -⟩ := send_packet_whole hs
  have hview : some (s.stream, s.phase 1) =
      some ([65, 66, 10], .ended (.sendPacket [66]) .returned) := by
    rw [← Option.map_some (f := fun s : State Bytes => (s.stream, s.phase 1)), ← hs]
    rfl
  simp only [Option.some.injEq, Prod.mk.injEq] at hview
  obtain ⟨hstream, hphase⟩ := hview
  obtain ⟨chunks, hchunks, hmem⟩ := hwhole 1 [66] hphase
  cases hchunks
  exact ⟨s, hs, hstream, hphase, hmem⟩

end ClientSend

end EasyNetwork
