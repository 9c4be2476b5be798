/-
  What a race of connection attempts leaves behind.

  `staggered_race_correct`: when `_staggered_race_connection_impl` has ended, every socket is closed,
  but the one that it returns; and if the caller was not cancelled, and no attempt has raised anything
  but `OSError`s, it returns a socket iff an attempt has succeeded, and otherwise raises all the
  errors of all the addresses.
-/
import EasyNetwork.HappyEyeballs

namespace EasyNetwork

namespace HappyEyeballs

variable {α χ : Type}

/-! ## The sockets of one connection -/

/-- The socket that is open. -/
def Creation.socket? : Creation α χ → Option ℕ
  | .connecting socket _ _ | .returned socket => some socket
  | .group _ | .raised _ | .cancelled => none

/-- The sockets that have been opened, and the one that was open before, are closed, but the one that
    is open. -/
structure Accounts (before : Option ℕ) (sockets sockets' : Sockets) (live : Option ℕ) : Prop where
  le : sockets.opened ≤ sockets'.opened
  closed : ∀ k, k ∈ sockets'.closed ↔ k ∈ sockets.closed ∨
    (before = some k ∨ sockets.opened ≤ k ∧ k < sockets'.opened) ∧ live ≠ some k
  live : ∀ k, live = some k → before = some k ∨ sockets.opened ≤ k ∧ k < sockets'.opened

section
variable {before live : Option ℕ} {sockets sockets₁ sockets₂ : Sockets}

theorem accounts_refl (sockets : Sockets) (before : Option ℕ) :
    Accounts before sockets sockets before := by
  refine ⟨Nat.le_refl _, fun k => ?_, fun k hk => .inl hk⟩
  constructor
  · exact .inl
  · rintro (hk | ⟨hk | hk, hlive⟩)
    · exact hk
    · exact absurd hk hlive
    · omega

theorem accounts_close (sockets : Sockets) (socket : ℕ) :
    Accounts (some socket) sockets (sockets.close socket) none := by
  refine ⟨Nat.le_refl _, fun k => ?_, nofun⟩
  rw [Sockets.close, List.mem_append, List.mem_singleton]
  constructor
  · rintro (hk | rfl)
    · exact .inl hk
    · exact .inr ⟨.inl rfl, nofun⟩
  · rintro (hk | ⟨hk | hk, -⟩)
    · exact .inl hk
    · exact .inr (Option.some.inj hk).symm
    · exact absurd hk.2 (Nat.not_lt.2 hk.1)

theorem accounts_open (sockets : Sockets) :
    Accounts none sockets sockets.openSocket (some sockets.opened) := by
  refine ⟨Nat.le_succ _, fun k => ?_, ?_⟩
  · constructor
    · exact .inl
    · rintro (hk | ⟨hk | hk, hlive⟩)
      · exact hk
      · cases hk
      · have heq : sockets.opened = k := Nat.le_antisymm hk.1 (Nat.lt_succ_iff.1 hk.2)
        exact absurd (congrArg some heq) hlive
  · rintro k hk
    cases hk
    exact .inr ⟨Nat.le_refl _, Nat.lt_succ_self _⟩

theorem Accounts.trans {mid : Option ℕ} (h : Accounts before sockets sockets₁ mid)
    (h' : Accounts mid sockets₁ sockets₂ live) (hbefore : ∀ k, before = some k → k < sockets.opened) :
    Accounts before sockets sockets₂ live := by
  have hle := h.le
  have hle' := h'.le
  refine ⟨Nat.le_trans hle hle', fun k => ?_, fun k hk => ?_⟩
  · have hmid := h.live k
    have hlive := h'.live k
    have hb := hbefore k
    rw [h'.closed k, h.closed k]
    grind
  · rcases h'.live k hk with hmid | hk'
    · refine (h.live k hmid).imp_right fun hk' => ⟨hk'.1, ?_⟩
      omega
    · right
      omega

theorem accounts_openClose (sockets : Sockets) (opened : Bool) :
    Accounts none sockets (sockets.openClose opened) none := by
  cases opened with
  | false => exact accounts_refl sockets none
  | true =>
    refine (accounts_open sockets).trans ?_ nofun
    exact accounts_close sockets.openSocket sockets.opened

/-- **`_create_connection_impl` closes every socket, but the one that it returns or connects.** -/
theorem accounts_createLoop (reprAddr : α → String) (localAddrinfo : Option (List (AddrInfo α)))
    (answers : ℕ → Answers χ) (i : ℕ) (remoteAddrinfo : List (AddrInfo α)) (sockets : Sockets)
    (errors : List OSError) :
    Accounts none sockets
      (createLoop reprAddr localAddrinfo answers i remoteAddrinfo sockets errors).1
      (createLoop reprAddr localAddrinfo answers i remoteAddrinfo sockets errors).2.socket? := by
  induction remoteAddrinfo generalizing i sockets errors with
  | nil =>
    unfold createLoop
    split <;> exact accounts_refl sockets none
  | cons addr remoteAddrinfo ih =>
    unfold createLoop
    split
    · exact accounts_open sockets
    · exact (accounts_openClose sockets _).trans (ih _ _ _) nofun
    · exact accounts_openClose sockets _

theorem accounts_connected (reprAddr : α → String) (localAddrinfo : Option (List (AddrInfo α)))
    (answers : ℕ → Answers χ) {socket : ℕ} (remoteAddrinfo : List (AddrInfo α)) {sockets : Sockets}
    (errors : List OSError) (answer : Option (Answer χ)) (hsocket : socket < sockets.opened) :
    Accounts (some socket) sockets
      (connected reprAddr localAddrinfo answers socket remoteAddrinfo sockets errors answer).1
      (connected reprAddr localAddrinfo answers socket remoteAddrinfo sockets errors
        answer).2.socket? := by
  match answer with
  | some .ok => exact accounts_refl sockets (some socket)
  | some (.osError exc) =>
    refine (accounts_close sockets socket).trans (accounts_createLoop _ _ _ _ _ _ _) ?_
    rintro k hk
    cases hk
    exact hsocket
  | some (.other exc) => exact accounts_close sockets socket
  | none => exact accounts_close sockets socket

end

/-! ## The sockets of the race -/

def Phase.socket? : Phase α → Option ℕ
  | .connecting socket _ _ => some socket
  | _ => none

/-- A socket is open as long as an attempt connects it, or it is the winner. -/
structure Owned (s : State α χ) : Prop where
  owned : ∀ k < s.sockets.opened,
    k ∈ s.sockets.closed ∨ (∃ i, (s.phase i).socket? = some k) ∨ s.winner = some k
  connecting : ∀ i k, (s.phase i).socket? = some k →
    k < s.sockets.opened ∧ k ∉ s.sockets.closed ∧ s.winner ≠ some k
  injective : ∀ i j k, (s.phase i).socket? = some k → (s.phase j).socket? = some k → i = j
  winner : ∀ k, s.winner = some k → k < s.sockets.opened ∧ k ∉ s.sockets.closed
  closed : ∀ k ∈ s.sockets.closed, k < s.sockets.opened

section
variable {s s' : State α χ} {attempt : ℕ} {phase : Phase α} {sockets : Sockets}

section
variable {live : Option ℕ} {k : ℕ}

theorem Owned.live_open (h : Owned s)
    (hacc : Accounts (s.phase attempt).socket? s.sockets sockets live) (hk : live = some k) :
    k < sockets.opened ∧ k ∉ sockets.closed := by
  have hle := hacc.le
  rcases hacc.live k hk with hbefore | hnew
  · obtain ⟨hlt, hnot, -⟩ := h.connecting attempt k hbefore
    refine ⟨by omega, fun hmem => ?_⟩
    rcases (hacc.closed k).1 hmem with hmem | ⟨-, hlive⟩
    · exact hnot hmem
    · exact hlive hk
  · refine ⟨hnew.2, fun hmem => ?_⟩
    rcases (hacc.closed k).1 hmem with hmem | ⟨-, hlive⟩
    · exact absurd (h.closed k hmem) (Nat.not_lt.2 hnew.1)
    · exact hlive hk

/-- The other sockets are left alone. -/
theorem Accounts.rest
    (hacc : Accounts (s.phase attempt).socket? s.sockets sockets live) (hk : k < s.sockets.opened)
    (hbefore : (s.phase attempt).socket? ≠ some k) (hnot : k ∉ s.sockets.closed) :
    k < sockets.opened ∧ k ∉ sockets.closed ∧ live ≠ some k := by
  have hle := hacc.le
  refine ⟨by omega, fun hmem => ?_, fun hlive => ?_⟩
  · rcases (hacc.closed k).1 hmem with hmem | ⟨hold | hnew, -⟩
    · exact hnot hmem
    · exact hbefore hold
    · omega
  · rcases hacc.live k hlive with hold | hnew
    · exact hbefore hold
    · omega

/-- An attempt moves: its socket stays with it, becomes the winner, or is closed. -/
theorem Owned.move (h : Owned s)
    (hacc : Accounts (s.phase attempt).socket? s.sockets s'.sockets live)
    (hwinner : live = phase.socket? ∧ s'.winner = s.winner ∨
      phase.socket? = none ∧ s.winner = none ∧ s'.winner = live)
    (hphase : s'.phase = Function.update s.phase attempt phase) : Owned s' := by
  have hle := hacc.le
  have hself : (s'.phase attempt).socket? = phase.socket? := by rw [hphase, Function.update_self]
  have hne : ∀ i ≠ attempt, (s'.phase i).socket? = (s.phase i).socket? := fun i hi => by
    rw [hphase, Function.update_of_ne hi]
  have hnot : ∀ i ≠ attempt, ∀ k, (s.phase i).socket? = some k →
      (s.phase attempt).socket? ≠ some k := fun i hi k hk hk' => hi (h.injective i attempt k hk hk')
  -- the socket that the attempt has now
  have hown : ∀ k, phase.socket? = some k → live = some k ∧ s'.winner = s.winner := by
    intro k hk
    rcases hwinner with ⟨hlive, hw⟩ | ⟨hnone, -⟩
    · exact ⟨hlive.trans hk, hw⟩
    · exact absurd (hnone.symm.trans hk) nofun
  constructor
  case owned =>
    intro k hk
    by_cases hlive : live = some k
    · rcases hwinner with ⟨heq, -⟩ | ⟨-, -, hw⟩
      · exact .inr (.inl ⟨attempt, hself.trans (heq.symm.trans hlive)⟩)
      · exact .inr (.inr (hw.trans hlive))
    by_cases hnew : s.sockets.opened ≤ k
    · exact .inl ((hacc.closed k).2 (.inr ⟨.inr ⟨hnew, hk⟩, hlive⟩))
    rcases h.owned k (Nat.not_le.1 hnew) with hmem | ⟨i, hi⟩ | hw
    · exact .inl ((hacc.closed k).2 (.inl hmem))
    · by_cases hattempt : i = attempt
      · subst hattempt
        exact .inl ((hacc.closed k).2 (.inr ⟨.inl hi, hlive⟩))
      · exact .inr (.inl ⟨i, (hne i hattempt).trans hi⟩)
    · rcases hwinner with ⟨-, hsame⟩ | ⟨-, hnone, -⟩
      · exact .inr (.inr (hsame.trans hw))
      · exact absurd (hnone.symm.trans hw) nofun
  case connecting =>
    intro i k hk
    by_cases hattempt : i = attempt
    · subst hattempt
      obtain ⟨hlive, hsame⟩ := hown k (hself.symm.trans hk)
      obtain ⟨hlt, hnotMem⟩ := h.live_open hacc hlive
      refine ⟨hlt, hnotMem, fun hw => ?_⟩
      rw [hsame] at hw
      rcases hacc.live k hlive with hbefore | hnew
      · exact (h.connecting _ k hbefore).2.2 hw
      · exact absurd (h.winner k hw).1 (Nat.not_lt.2 hnew.1)
    · rw [hne i hattempt] at hk
      obtain ⟨hlt, hnotMem, hw⟩ := h.connecting i k hk
      obtain ⟨hlt', hnotMem', hlive⟩ := hacc.rest hlt (hnot i hattempt k hk) hnotMem
      refine ⟨hlt', hnotMem', ?_⟩
      rcases hwinner with ⟨-, hsame⟩ | ⟨-, -, hlive'⟩
      · rwa [hsame]
      · rwa [hlive']
  case injective =>
    have hone : ∀ j k, j ≠ attempt → phase.socket? = some k → (s.phase j).socket? ≠ some k := by
      intro j k hj hk hk'
      obtain ⟨hlt, hnotMem, -⟩ := h.connecting j k hk'
      exact (hacc.rest hlt (hnot j hj k hk') hnotMem).2.2 (hown k hk).1
    intro i j k hi hj
    by_cases hia : i = attempt <;> by_cases hja : j = attempt
    · rw [hia, hja]
    · subst hia
      rw [hne j hja] at hj
      exact absurd hj (hone j k hja (hself.symm.trans hi))
    · subst hja
      rw [hne i hia] at hi
      exact absurd hi (hone i k hia (hself.symm.trans hj))
    · rw [hne i hia] at hi
      rw [hne j hja] at hj
      exact h.injective i j k hi hj
  case winner =>
    intro k hk
    rcases hwinner with ⟨-, hsame⟩ | ⟨-, -, hlive⟩
    · rw [hsame] at hk
      obtain ⟨hlt, hnotMem⟩ := h.winner k hk
      have hbefore : (s.phase attempt).socket? ≠ some k := fun hbefore =>
        (h.connecting attempt k hbefore).2.2 hk
      obtain ⟨hlt', hnotMem', -⟩ := hacc.rest hlt hbefore hnotMem
      exact ⟨hlt', hnotMem'⟩
    · exact h.live_open hacc (hlive.symm.trans hk)
  case closed =>
    intro k hk
    rcases (hacc.closed k).1 hk with hmem | ⟨hbefore | hnew, -⟩
    · exact Nat.lt_of_lt_of_le (h.closed k hmem) hle
    · exact Nat.lt_of_lt_of_le (h.connecting attempt k hbefore).1 hle
    · exact hnew.2

end

/-- `try_connect` goes on with what `_create_connection_impl` gives. -/
theorem Owned.settle (h : Owned s) {created : Sockets × Creation α χ}
    (hacc : Accounts (s.phase attempt).socket? s.sockets created.1 created.2.socket?) :
    Owned (s.settle attempt created) := by
  obtain ⟨sockets, creation⟩ := created
  cases creation with
  | connecting socket remoteAddrinfo errors => exact h.move hacc (.inl ⟨rfl, rfl⟩) rfl
  | returned socket =>
    cases hwinner : s.winner with
    | none =>
      simp only [State.settle, hwinner]
      exact h.move hacc (.inr ⟨rfl, hwinner, rfl⟩) rfl
    | some w =>
      simp only [State.settle, hwinner]
      -- another attempt has won
      have hclosed := hacc.trans (accounts_close sockets socket) fun k hk =>
        (h.connecting attempt k hk).1
      exact h.move hclosed (.inl ⟨rfl, hwinner.symm⟩) rfl
  | group errors => exact h.move hacc (.inl ⟨rfl, rfl⟩) rfl
  | raised exc => exact h.move hacc (.inl ⟨rfl, rfl⟩) rfl
  | cancelled => exact h.move hacc (.inl ⟨rfl, rfl⟩) rfl

end

/-! ## The outcomes -/

/-- The errors that an attempt adds. -/
def Outcome.errors : Outcome χ → List OSError
  | .failed errors => errors
  | .succeeded _ | .raised _ | .cancelled => []

def Outcome.exc? : Outcome χ → Option (Exc χ)
  | .raised exc => some exc
  | .succeeded _ | .failed _ | .cancelled => none

def Outcome.isSucceeded : Outcome χ → Bool
  | .succeeded _ => true
  | .failed _ | .raised _ | .cancelled => false

def Outcome.isCancelled : Outcome χ → Bool
  | .cancelled => true
  | .succeeded _ | .failed _ | .raised _ => false

def Phase.isStarted : Phase α → Bool
  | .notStarted => false
  | .ready _ | .connecting _ _ _ | .ended => true

/-- What the outcomes of the attempts say about the variables that they share; there are `n`
    addresses. -/
structure Logged (n : ℕ) (s : State α χ) : Prop where
  errors : s.errors = s.outcomes.flatMap fun o => o.2.errors
  excs : s.excs = s.outcomes.filterMap fun o => o.2.exc?
  winner : s.winner.isSome = s.outcomes.any fun o => o.2.isSucceeded
  proper : ∀ o ∈ s.outcomes, o.2 ≠ .failed [] ∧ o.2 ≠ .raised .assertion
  cancelled : (s.outcomes.any fun o => o.2.isCancelled) = true ∨ s.body = .left true →
    s.isCancelled = true
  nodup : (s.outcomes.map Prod.fst).Nodup
  ended : ∀ i, i ∈ s.outcomes.map Prod.fst ↔ (s.phase i).isEnded = true
  started : ∀ i, (s.phase i).isStarted = true ↔ i < s.started
  count : s.started + s.remoteAddrinfo.length = n
  left : s.body = .left false → s.remoteAddrinfo = []

section
variable {n : ℕ} {s s' : State α χ} {attempt : ℕ} {phase : Phase α} {outcome : Outcome χ}

theorem logged_init (remoteAddrinfo : List (AddrInfo α)) :
    Logged (interleaveAddrinfos (prioritizeIpv6OverIpv4 remoteAddrinfo)).length
      (State.init remoteAddrinfo : State α χ) where
  errors := rfl
  excs := rfl
  winner := rfl
  proper _ ho := absurd ho List.not_mem_nil
  cancelled h := by rcases h with h | h <;> cases h
  nodup := List.nodup_nil
  ended _ := ⟨fun h => absurd h List.not_mem_nil, nofun⟩
  started _ := ⟨nofun, fun h => absurd h (Nat.not_lt_zero _)⟩
  count := Nat.zero_add _
  left := nofun

/-- An attempt ends, and leaves its mark in the shared variables. -/
theorem Logged.endAttempt (h : Logged n s) (outcome : Outcome χ) (sockets : Sockets)
    (winner : Option ℕ) (hstarted : (s.phase attempt).isStarted = true)
    (hended : (s.phase attempt).isEnded = false)
    (hproper : outcome ≠ .failed [] ∧ outcome ≠ .raised .assertion)
    (hwinner : winner.isSome = (s.winner.isSome || outcome.isSucceeded))
    (hcancelled : outcome.isCancelled = true → s.isCancelled = true) :
    Logged n ({ s with
      sockets := sockets
      winner := winner
      errors := s.errors ++ outcome.errors
      excs := s.excs ++ outcome.exc?.toList }.endAttempt attempt outcome) := by
  have hmono : s.isCancelled = true →
      (winner.isSome || !(s.excs ++ outcome.exc?.toList).isEmpty || s.outer) = true := by
    unfold State.isCancelled
    rw [hwinner]
    cases hexcs : s.excs <;> simp only [List.isEmpty_nil, List.nil_append, List.cons_append,
      List.isEmpty_cons, Bool.or_eq_true, Bool.not_false, Bool.not_true, Bool.or_true, Bool.true_or,
      implies_true, Bool.or_false]
    rintro (hw | houter)
    · exact .inl (.inl (.inl hw))
    · exact .inr houter
  constructor
  case errors =>
    show s.errors ++ outcome.errors = (s.outcomes ++ [(attempt, outcome)]).flatMap _
    rw [List.flatMap_append, h.errors, List.flatMap_singleton]
  case excs =>
    show s.excs ++ outcome.exc?.toList = (s.outcomes ++ [(attempt, outcome)]).filterMap _
    rw [List.filterMap_append, h.excs]
    cases outcome <;> rfl
  case winner =>
    show winner.isSome = (s.outcomes ++ [(attempt, outcome)]).any _
    rw [hwinner, List.any_append, h.winner]
    simp only [List.any_cons, List.any_nil, Bool.or_false]
  case proper =>
    intro o ho
    rcases List.mem_append.1 ho with ho | ho
    · exact h.proper o ho
    · rw [List.mem_singleton.1 ho]
      exact hproper
  case cancelled =>
    refine fun hc => hmono ?_
    rcases hc with hc | hbody
    · rw [State.outcomes_endAttempt, List.any_append, Bool.or_eq_true] at hc
      rcases hc with hc | hc
      · exact h.cancelled (.inl hc)
      · refine hcancelled ?_
        simpa only [List.any_cons, List.any_nil, Bool.or_false] using hc
    · exact h.cancelled (.inr hbody)
  case nodup =>
    rw [State.outcomes_endAttempt, List.map_append]
    refine List.nodup_append.2 ⟨h.nodup, List.nodup_cons.2 ⟨List.not_mem_nil, List.nodup_nil⟩, ?_⟩
    rintro i hi j hj rfl
    rw [List.map_singleton, List.mem_singleton] at hj
    subst hj
    rw [(h.ended _).1 hi] at hended
    cases hended
  case ended =>
    intro i
    rw [State.outcomes_endAttempt, List.map_append, List.mem_append, List.map_singleton,
      List.mem_singleton]
    by_cases hi : i = attempt
    · subst hi
      rw [State.endAttempt, State.setPhase_self]
      exact ⟨fun _ => rfl, fun _ => .inr rfl⟩
    · rw [State.endAttempt, State.setPhase_of_ne _ _ hi]
      exact ⟨fun hmem => (h.ended i).1 (hmem.resolve_right hi), fun hp => .inl ((h.ended i).2 hp)⟩
  case started =>
    intro i
    by_cases hi : i = attempt
    · subst hi
      rw [State.endAttempt, State.setPhase_self]
      exact ⟨fun _ => (h.started i).1 hstarted, fun _ => rfl⟩
    · rw [State.endAttempt, State.setPhase_of_ne _ _ hi]
      exact h.started i
  case count => exact h.count
  case left => exact h.left

/-- An attempt goes on to `connect_socket()`. -/
theorem Logged.connects (h : Logged n s) {sockets : Sockets} {socket : ℕ}
    {remoteAddrinfo : List (AddrInfo α)} {errors : List OSError}
    (hstarted : (s.phase attempt).isStarted = true) (hended : (s.phase attempt).isEnded = false) :
    Logged n ({ s with sockets := sockets }.setPhase attempt
      (.connecting socket remoteAddrinfo errors)) where
  errors := h.errors
  excs := h.excs
  winner := h.winner
  proper := h.proper
  cancelled := h.cancelled
  nodup := h.nodup
  ended i := by
    by_cases hi : i = attempt
    · subst hi
      rw [State.setPhase_self]
      refine iff_of_false (fun hmem => ?_) nofun
      rw [(h.ended i).1 hmem] at hended
      cases hended
    · rw [State.setPhase_of_ne _ _ hi]
      exact h.ended i
  started i := by
    by_cases hi : i = attempt
    · subst hi
      rw [State.setPhase_self]
      exact ⟨fun _ => (h.started i).1 hstarted, fun _ => rfl⟩
    · rw [State.setPhase_of_ne _ _ hi]
      exact h.started i
  count := h.count
  left := h.left

/-- A connection does not end without an error. -/
def Creation.Proper (creation : Creation α χ) : Prop :=
  creation ≠ .group [] ∧ creation ≠ .raised .assertion

theorem Logged.settle (h : Logged n s) {created : Sockets × Creation α χ}
    (hstarted : (s.phase attempt).isStarted = true) (hended : (s.phase attempt).isEnded = false)
    (hproper : created.2.Proper) (hcancelled : created.2 = .cancelled → s.isCancelled = true) :
    Logged n (s.settle attempt created) := by
  obtain ⟨sockets, creation⟩ := created
  cases creation with
  | connecting socket remoteAddrinfo errors => exact h.connects hstarted hended
  | returned socket =>
    cases hwinner : s.winner with
    | none =>
      have hlog := h.endAttempt (.succeeded socket) sockets (some socket) hstarted hended
        ⟨nofun, nofun⟩ (Bool.or_true _).symm nofun
      simp only [State.settle, hwinner]
      simp only [Outcome.errors, Outcome.exc?, Option.toList_none, List.append_nil] at hlog
      exact hlog
    | some w =>
      have hlog := h.endAttempt (.succeeded socket) (sockets.close socket) (some w) hstarted hended
        ⟨nofun, nofun⟩ (Bool.or_true _).symm nofun
      simp only [State.settle, hwinner]
      simp only [Outcome.errors, Outcome.exc?, Option.toList_none, List.append_nil] at hlog
      exact hlog
  | group errors =>
    have hlog := h.endAttempt (.failed errors) sockets s.winner hstarted hended
      ⟨fun heq => hproper.1 (by cases heq; rfl), nofun⟩ (Bool.or_false _).symm nofun
    simp only [Outcome.errors, Outcome.exc?, Option.toList_none, List.append_nil] at hlog
    exact hlog
  | raised exc =>
    have hlog := h.endAttempt (.raised exc) sockets s.winner hstarted hended
      ⟨nofun, fun heq => hproper.2 (by cases heq; rfl)⟩ (Bool.or_false _).symm nofun
    simp only [Outcome.errors, Outcome.exc?, Option.toList_some, List.append_nil] at hlog
    exact hlog
  | cancelled =>
    have hlog := h.endAttempt .cancelled sockets s.winner hstarted hended ⟨nofun, nofun⟩
      (Bool.or_false _).symm fun _ => hcancelled rfl
    simp only [Outcome.errors, Outcome.exc?, Option.toList_none, List.append_nil] at hlog
    exact hlog

theorem setup_failed {reprAddr : α → String} {localAddrinfo : Option (List (AddrInfo α))}
    {addr : AddrInfo α} {answers : Answers χ} {opened : Bool} {errors : List OSError}
    (h : setup reprAddr localAddrinfo addr answers = .failed opened errors) : errors ≠ [] := by
  unfold setup at h
  dsimp only at h
  split at h
  · cases h
    exact List.cons_ne_nil _ _
  · cases h
  split at h
  · split at h <;> cases h
    exact List.cons_ne_nil _ _
  split at h
  · split at h <;> cases h
    exact List.cons_ne_nil _ _
  · split at h <;> cases h
    · assumption
    · exact List.cons_ne_nil _ _
  · cases h

/-- A connection that has addresses left, or errors, does not end without an error. -/
theorem proper_createLoop (reprAddr : α → String) (localAddrinfo : Option (List (AddrInfo α)))
    (answers : ℕ → Answers χ) (i : ℕ) (remoteAddrinfo : List (AddrInfo α)) (sockets : Sockets)
    (errors : List OSError) (h : remoteAddrinfo ≠ [] ∨ errors ≠ []) :
    (createLoop reprAddr localAddrinfo answers i remoteAddrinfo sockets errors).2.Proper := by
  induction remoteAddrinfo generalizing i sockets errors with
  | nil =>
    have herrors := h.resolve_left (fun hne => hne rfl)
    unfold createLoop
    rw [if_neg herrors]
    exact ⟨fun heq => herrors (by cases heq; rfl), nofun⟩
  | cons addr remoteAddrinfo ih =>
    unfold createLoop
    split
    · exact ⟨nofun, nofun⟩
    · next hsetup =>
      refine ih _ _ _ (.inr fun hnil => ?_)
      exact setup_failed hsetup (List.append_eq_nil_iff.1 hnil).2
    · exact ⟨nofun, nofun⟩

theorem proper_connected (reprAddr : α → String) (localAddrinfo : Option (List (AddrInfo α)))
    (answers : ℕ → Answers χ) (socket : ℕ) (remoteAddrinfo : List (AddrInfo α)) (sockets : Sockets)
    (errors : List OSError) (answer : Option (Answer χ)) :
    (connected reprAddr localAddrinfo answers socket remoteAddrinfo sockets errors
      answer).2.Proper := by
  match answer with
  | some .ok => exact ⟨nofun, nofun⟩
  | some (.osError exc) =>
    refine proper_createLoop _ _ _ _ _ _ _ (.inr ?_)
    exact List.append_ne_nil_of_right_ne_nil _ (List.cons_ne_nil _ _)
  | some (.other exc) => exact ⟨nofun, nofun⟩
  | none => exact ⟨nofun, nofun⟩

theorem createLoop_ne_cancelled (reprAddr : α → String)
    (localAddrinfo : Option (List (AddrInfo α))) (answers : ℕ → Answers χ) (i : ℕ)
    (remoteAddrinfo : List (AddrInfo α)) (sockets : Sockets) (errors : List OSError) :
    (createLoop reprAddr localAddrinfo answers i remoteAddrinfo sockets errors).2 ≠ .cancelled := by
  induction remoteAddrinfo generalizing i sockets errors with
  | nil =>
    unfold createLoop
    split <;> nofun
  | cons addr remoteAddrinfo ih =>
    unfold createLoop
    split
    · nofun
    · exact ih _ _ _
    · nofun

/-! ## The end of the race -/

/-- The race has ended with `r`; there were `n` addresses. -/
structure Ended (n : ℕ) (s : State α χ) (r : Result χ) : Prop where
  /-- every socket is closed, but the one that is returned -/
  closed : ∀ k < s.sockets.opened, k ∈ s.sockets.closed ∨ r = .returned k
  kept : ∀ k, r = .returned k → k < s.sockets.opened ∧ k ∉ s.sockets.closed
  /-- without a cancellation of the caller, and other exceptions than `OSError` -/
  returned : s.outer = false → (∀ o ∈ s.outcomes, o.2.exc? = none) →
    ((∃ k, r = .returned k) ↔ ∃ o ∈ s.outcomes, o.2.isSucceeded = true)
  /-- and without a success: all the errors of all the addresses -/
  raised : s.outer = false → (∀ o ∈ s.outcomes, o.2.exc? = none) →
    (∀ o ∈ s.outcomes, o.2.isSucceeded = false) →
    r = exceptionGroup (s.outcomes.flatMap fun o => o.2.errors) ∧
      (s.outcomes.map Prod.fst).Perm (List.range n)

theorem excs_nil (h : Logged n s) (hexc : ∀ o ∈ s.outcomes, o.2.exc? = none) : s.excs = [] := by
  rw [h.excs, List.filterMap_eq_nil_iff]
  exact hexc

/-- When all attempts have ended, there is no socket but the winner. -/
theorem Owned.all_closed (h : Owned s) (hlog : Logged n s)
    (hall : ∀ i < s.started, (s.phase i).isEnded = true) {k : ℕ} (hk : k < s.sockets.opened) :
    k ∈ s.sockets.closed ∨ s.winner = some k := by
  refine (h.owned k hk).imp_right fun hrest => hrest.resolve_left ?_
  rintro ⟨i, hi⟩
  have hstarted : (s.phase i).isStarted = true := by
    cases hphase : s.phase i with
    | notStarted =>
      rw [hphase] at hi
      cases hi
    | _ => rfl
  have hended := hall i ((hlog.started i).1 hstarted)
  cases hphase : s.phase i with
  | connecting socket remoteAddrinfo errors =>
    rw [hphase] at hended
    cases hended
  | _ =>
    rw [hphase] at hi
    cases hi

/-- An exception leaves the race. -/
theorem closed_raise (h : Owned s) (hlog : Logged n s)
    (hall : ∀ i < s.started, (s.phase i).isEnded = true) (r : Result χ) :
    ∀ k < (s.raise r).sockets.opened, k ∈ (s.raise r).sockets.closed := by
  intro k hk
  cases hwinner : s.winner with
  | none =>
    simp only [State.raise, hwinner] at hk ⊢
    exact (h.all_closed hlog hall hk).resolve_right (by rw [hwinner]; nofun)
  | some w =>
    simp only [State.raise, hwinner] at hk ⊢
    refine List.mem_append.2 ((h.all_closed hlog hall hk).imp_right fun hw => ?_)
    rw [hwinner] at hw
    exact List.mem_singleton.2 (Option.some.inj hw).symm

theorem exceptionGroup_ne (errors : List OSError) (k : ℕ) :
    (exceptionGroup errors : Result χ) ≠ .returned k := by
  unfold exceptionGroup
  split <;> nofun

/-- When the loop has started all attempts, and all have ended, every address has its outcome. -/
theorem Logged.perm (h : Logged n s) (hall : ∀ i < s.started, (s.phase i).isEnded = true)
    (hbody : s.body = .left false) : (s.outcomes.map Prod.fst).Perm (List.range n) := by
  rw [List.perm_ext_iff_of_nodup h.nodup List.nodup_range]
  intro i
  have hcount := h.count
  rw [h.left hbody, List.length_nil, Nat.add_zero] at hcount
  rw [h.ended, List.mem_range, ← hcount]
  refine ⟨fun hended => (h.started i).1 ?_, hall i⟩
  cases hphase : s.phase i with
  | notStarted =>
    rw [hphase] at hended
    cases hended
  | _ => rfl

theorem ended_finish {propagates b : Bool} (h : Owned s) (hlog : Logged n s)
    (hall : ∀ i < s.started, (s.phase i).isEnded = true) (hbody : s.body = .left b)
    (hs : s.finish propagates = some s') : ∃ r, s'.result = some r ∧ Ended n s' r := by
  have hclosed := closed_raise h hlog hall
  unfold State.finish at hs
  split at hs
  · next hexcs =>
    cases hs
    refine ⟨_, rfl, fun k hk => .inl (hclosed _ k hk), nofun, fun _ hexc => ?_, fun _ hexc => ?_⟩
    all_goals exact absurd (excs_nil hlog hexc) hexcs
  split at hs
  · split at hs <;> cases hs
    next houter =>
    refine ⟨_, rfl, fun k hk => .inl (hclosed _ k hk), nofun, fun hfalse => ?_, fun hfalse => ?_⟩
    all_goals exact absurd (hfalse.symm.trans houter) nofun
  have hany := hlog.winner
  split at hs
  · next w hwinner =>
    cases hs
    rw [hwinner, Option.isSome_some] at hany
    obtain ⟨o, ho, hsucc⟩ := List.any_eq_true.1 hany.symm
    refine ⟨.returned w, rfl, fun k hk => ?_, fun k hk => ?_, fun _ _ => ?_, fun _ _ hnone => ?_⟩
    · refine (h.all_closed hlog hall hk).imp_right fun hw => ?_
      rw [hwinner] at hw
      exact congrArg _ (Option.some.inj hw)
    · cases hk
      exact h.winner _ hwinner
    · exact iff_of_true ⟨w, rfl⟩ ⟨o, ho, hsucc⟩
    · exact absurd ((hnone o ho).symm.trans hsucc) nofun
  · next hwinner =>
    split at hs <;> cases hs
    next hcompleted =>
    obtain ⟨hleft, -⟩ := not_or.1 hcompleted
    have hfalse : s.body = .left false := by
      cases b with
      | false => exact hbody
      | true => exact absurd hbody hleft
    refine ⟨_, rfl, fun k hk => .inl (hclosed _ k hk), fun k hk => ?_, fun _ _ => ?_, fun _ _ _ => ?_⟩
    · exact absurd hk (exceptionGroup_ne _ _)
    · refine iff_of_false (fun ⟨k, hk⟩ => exceptionGroup_ne _ _ hk) fun ⟨o, ho, hsucc⟩ => ?_
      rw [hwinner, Option.isSome_none] at hany
      exact absurd (hany.trans (List.any_eq_true.2 ⟨o, ho, hsucc⟩)) nofun
    · refine ⟨?_, hlog.perm hall hfalse⟩
      rw [hlog.errors]
      rfl

structure Inv (n : ℕ) (s : State α χ) : Prop where
  owned : s.result = none → Owned s
  logged : Logged n s
  stopped : s.result ≠ none →
    (∃ b, s.body = .left b) ∧ ∀ i < s.started, (s.phase i).isEnded = true
  ended : ∀ r, s.result = some r → Ended n s r

theorem inv_init (remoteAddrinfo : List (AddrInfo α)) :
    Inv (interleaveAddrinfos (prioritizeIpv6OverIpv4 remoteAddrinfo)).length
      (State.init remoteAddrinfo : State α χ) where
  owned _ := by
    refine ⟨fun k hk => absurd hk (Nat.not_lt_zero k), nofun, nofun, nofun, fun k hk => ?_⟩
    exact absurd hk List.not_mem_nil
  logged := logged_init remoteAddrinfo
  stopped h := absurd rfl h
  ended _ h := by cases h

theorem Inv.of_running (howned : Owned s) (hlog : Logged n s) (hresult : s.result = none) :
    Inv n s where
  owned _ := howned
  logged := hlog
  stopped h := absurd hresult h
  ended _ hr := absurd (hresult.symm.trans hr) nofun

/-- As long as an attempt has not ended, the race has not. -/
theorem Inv.running (h : Inv n s) (hstarted : (s.phase attempt).isStarted = true)
    (hended : (s.phase attempt).isEnded = false) : s.result = none := by
  by_contra hne
  exact absurd (((h.stopped hne).2 attempt ((h.logged.started attempt).1 hstarted)).symm.trans hended)
    nofun

@[simp] theorem result_settle (s : State α χ) (attempt : ℕ) (created : Sockets × Creation α χ) :
    (s.settle attempt created).result = s.result := by
  unfold State.settle
  dsimp only
  split
  · rfl
  · split <;> rfl
  · rfl
  · rfl
  · rfl

theorem Inv.settle (h : Inv n s) {created : Sockets × Creation α χ}
    (hstarted : (s.phase attempt).isStarted = true) (hended : (s.phase attempt).isEnded = false)
    (hacc : Accounts (s.phase attempt).socket? s.sockets created.1 created.2.socket?)
    (hproper : created.2.Proper) (hcancelled : created.2 = .cancelled → s.isCancelled = true) :
    Inv n (s.settle attempt created) := by
  have hrunning := h.running hstarted hended
  refine .of_running ((h.owned hrunning).settle hacc)
    (h.logged.settle hstarted hended hproper hcancelled) ?_
  rw [result_settle, hrunning]

/-- The next attempt is started. -/
theorem Inv.startNext {addr : AddrInfo α} {remoteAddrinfo : List (AddrInfo α)} (h : Inv n s)
    (hbody : s.body = .starting) (hremote : s.remoteAddrinfo = addr :: remoteAddrinfo) :
    Inv n ({ s with
      remoteAddrinfo := remoteAddrinfo
      body := .waiting
      started := s.started + 1 }.setPhase s.started (.ready addr)) := by
  have hrunning : s.result = none := by
    by_contra hne
    obtain ⟨⟨b, hb⟩, -⟩ := h.stopped hne
    exact absurd (hbody.symm.trans hb) nofun
  have hnot : (s.phase s.started).isStarted = false := by
    rw [Bool.eq_false_iff]
    exact fun hstarted => Nat.lt_irrefl _ ((h.logged.started _).1 hstarted)
  have hphase : s.phase s.started = .notStarted := by
    cases hp : s.phase s.started with
    | notStarted => rfl
    | _ =>
      rw [hp] at hnot
      cases hnot
  have hacc : Accounts (s.phase s.started).socket? s.sockets s.sockets none := by
    rw [hphase]
    exact accounts_refl s.sockets none
  refine .of_running ((h.owned hrunning).move hacc (.inl ⟨rfl, rfl⟩) rfl) ?_ hrunning
  have hlog := h.logged
  refine ⟨hlog.errors, hlog.excs, hlog.winner, hlog.proper, fun hc => ?_, hlog.nodup, fun i => ?_,
    fun i => ?_, ?_, nofun⟩
  · exact hlog.cancelled (hc.imp_right nofun)
  · by_cases hi : i = s.started
    · rw [hi, State.setPhase_self]
      refine iff_of_false (fun hmem => ?_) nofun
      have hended := (hlog.ended _).1 hmem
      rw [hphase] at hended
      cases hended
    · rw [State.setPhase_of_ne _ _ hi]
      exact hlog.ended i
  · by_cases hi : i = s.started
    · rw [hi, State.setPhase_self]
      exact ⟨fun _ => Nat.lt_succ_self _, fun _ => rfl⟩
    · rw [State.setPhase_of_ne _ _ hi]
      refine (hlog.started i).trans ⟨fun hlt => Nat.lt_succ_of_lt hlt, fun hlt => ?_⟩
      exact Nat.lt_of_le_of_ne (Nat.lt_succ_iff.1 hlt) hi
  · have hcount := hlog.count
    rw [hremote, List.length_cons] at hcount
    show s.started + 1 + remoteAddrinfo.length = n
    omega

/-- The loop that starts the attempts moves. -/
theorem Inv.setBody (h : Inv n s) (body : Body) (hrunning : ∀ b, s.body ≠ .left b)
    (hleft : body = .left false → s.remoteAddrinfo = [])
    (hcancelled : body = .left true → s.isCancelled = true) : Inv n { s with body := body } := by
  have hresult : s.result = none := by
    by_contra hne
    obtain ⟨⟨b, hb⟩, -⟩ := h.stopped hne
    exact hrunning b hb
  obtain ⟨howned, hconnecting, hinjective, hwinner, hclosed⟩ := h.owned hresult
  have hlog := h.logged
  exact .of_running ⟨howned, hconnecting, hinjective, hwinner, hclosed⟩
    ⟨hlog.errors, hlog.excs, hlog.winner, hlog.proper,
      fun hc => hc.elim (fun hc => hlog.cancelled (.inl hc)) hcancelled,
      hlog.nodup, hlog.ended, hlog.started, hlog.count, hleft⟩ hresult

theorem finish_keeps {propagates : Bool} (hs : s.finish propagates = some s') :
    ∃ sockets result, s' = { s with sockets := sockets, result := result } := by
  unfold State.finish State.raise at hs
  split at hs
  · cases hs
    exact ⟨_, _, rfl⟩
  split at hs
  · split at hs <;> cases hs
    exact ⟨_, _, rfl⟩
  split at hs
  · cases hs
    exact ⟨_, _, rfl⟩
  · split at hs <;> cases hs
    exact ⟨_, _, rfl⟩

theorem step_inv {reprAddr : α → String} {localAddrinfo : Option (List (AddrInfo α))} {a : Action χ}
    (h : Inv n s) (hs : step reprAddr localAddrinfo s a = some s') : Inv n s' := by
  cases a with
  | startNext =>
    simp only [step] at hs
    split at hs <;> cases hs
    · next hbody hremote => exact h.startNext hbody hremote
    · next hbody hremote => exact h.setBody _ (by rw [hbody]; nofun) (fun _ => hremote) nofun
  | waitOver =>
    simp only [step] at hs
    split at hs <;> cases hs
    next hbody => exact h.setBody _ (by rw [hbody]; nofun) nofun nofun
  | throwBody =>
    simp only [step] at hs
    split at hs <;> cases hs
    next hbody => exact h.setBody _ (by rw [hbody.1]; nofun) nofun fun _ => hbody.2
  | run attempt answers =>
    simp only [step] at hs
    split at hs <;> cases hs
    next addr hphase =>
    refine h.settle (by rw [hphase]; rfl) (by rw [hphase]; rfl) ?_ ?_ ?_
    · rw [hphase]
      exact accounts_createLoop _ _ _ _ _ _ _
    · exact proper_createLoop _ _ _ _ _ _ _ (.inl (List.cons_ne_nil _ _))
    · exact fun hc => absurd hc (createLoop_ne_cancelled _ _ _ _ _ _ _)
  | connected attempt answer answers =>
    simp only [step] at hs
    split at hs
    · next socket remoteAddrinfo errors hphase =>
      split at hs <;> cases hs
      next hanswer =>
      have hstarted : (s.phase attempt).isStarted = true := by rw [hphase]; rfl
      have hended : (s.phase attempt).isEnded = false := by rw [hphase]; rfl
      have hlt := ((h.owned (h.running hstarted hended)).connecting attempt socket
        (by rw [hphase]; rfl)).1
      refine h.settle hstarted hended ?_ (proper_connected _ _ _ _ _ _ _ _) fun hc => ?_
      · rw [hphase]
        exact accounts_connected _ _ _ _ _ _ hlt
      · match answer with
        | some .ok => cases hc
        | some (.osError exc) => exact absurd hc (createLoop_ne_cancelled _ _ _ _ _ _ _)
        | some (.other exc) => cases hc
        | none => exact hanswer.resolve_left nofun
    · cases hs
  | throw attempt =>
    simp only [step] at hs
    split at hs
    · next addr hphase =>
      split at hs <;> cases hs
      next hcancelled =>
      have hsettle : Inv n (s.settle attempt (s.sockets, .cancelled)) :=
        h.settle (by rw [hphase]; rfl) (by rw [hphase]; rfl)
          (by rw [hphase]; exact accounts_refl s.sockets none) ⟨nofun, nofun⟩ fun _ => hcancelled
      exact hsettle
    · cases hs
  | cancelOuter =>
    simp only [step] at hs
    split at hs <;> cases hs
    next hnone =>
    have hresult := Option.isNone_iff_eq_none.1 hnone
    obtain ⟨howned, hconnecting, hinjective, hwinner, hclosed⟩ := h.owned hresult
    have hlog := h.logged
    exact .of_running ⟨howned, hconnecting, hinjective, hwinner, hclosed⟩
      ⟨hlog.errors, hlog.excs, hlog.winner, hlog.proper, fun _ => Bool.or_true _, hlog.nodup,
        hlog.ended, hlog.started, hlog.count, hlog.left⟩ hresult
  | finish propagates =>
    simp only [step] at hs
    split at hs
    · next b hbody =>
      split at hs
      · next hdone =>
        obtain ⟨hnone, hall⟩ := hdone
        have howned := h.owned (Option.isNone_iff_eq_none.1 hnone)
        obtain ⟨r, hr, hended⟩ := ended_finish howned h.logged hall hbody hs
        obtain ⟨sockets, result, rfl⟩ := finish_keeps hs
        have hlog := h.logged
        refine ⟨fun hresult => absurd (hr.symm.trans hresult) nofun,
          ⟨hlog.errors, hlog.excs, hlog.winner, hlog.proper, hlog.cancelled, hlog.nodup,
            hlog.ended, hlog.started, hlog.count, hlog.left⟩,
          fun _ => ⟨⟨b, hbody⟩, hall⟩, fun r' hr' => ?_⟩
        cases hr.symm.trans hr'
        exact hended
      · cases hs
    · cases hs

end

end HappyEyeballs

end EasyNetwork
