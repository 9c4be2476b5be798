/-
  The iterators over received packets (`clients/_iter.py`).

  A call of `next()` receives one packet within what is left of the timeout, and an `OSError` ends
  the iteration.  Another exception leaves the call before the timeout is computed anew.

  `recvIterator_timeout_iff`: the timeout covers the whole iteration iff it is zero or infinite, or
  no call follows one that has raised.
-/
import EasyNetwork.Selector

namespace EasyNetwork

namespace RecvIterator

variable {ρ ε S : Type}

/-- How a call of `recv_packet()` ends. -/
inductive Received (ρ ε : Type) where
  | packet (packet : ρ)
  | osError
  /-- a parse error, or any other exception that is no `OSError` -/
  | raised (exc : ε)
  deriving DecidableEq, Repr

/-- How a call of `next()` ends. -/
inductive Next (ρ ε : Type) where
  | packet (packet : ρ)
  | stopIteration
  | raised (exc : ε)
  deriving DecidableEq, Repr

/-- An iterator: the timeout that it gives to `recv_packet()`, and `next()` when this call ends
    after some time. -/
structure Iterator (ρ ε S : Type) where
  allowed : S → Delay
  next : S → Received ρ ε → ℚ → S × Next ρ ε

/-- `ClientRecvIterator`, by its `__timeout`. -/
def clientRecvIterator : Iterator ρ ε (Option Delay) where
  allowed timeout := timeout.getD ⊤
  next
    | timeout, .packet packet, elapsed =>
      (match timeout with
        | some timeout => some (recomputeTimeout timeout elapsed)
        | none => none, .packet packet)
    | timeout, .osError, _ => (timeout, .stopIteration)
    | timeout, .raised exc, _ => (timeout, .raised exc)

/-- `AsyncClientRecvIterator`, by its `__timeout`; `backend.timeout()` bounds `recv_packet()`. -/
def asyncClientRecvIterator : Iterator ρ ε Delay where
  allowed timeout := timeout
  next
    | timeout, .packet packet, elapsed => (recomputeTimeout timeout elapsed, .packet packet)
    | timeout, .osError, _ => (timeout, .stopIteration)
    | timeout, .raised exc, _ => (timeout, .raised exc)

/-- `AsyncClientRecvIterator.__init__`. -/
def asyncInit (timeout : Option Delay) : Delay := timeout.getD ⊤

namespace Iterator
variable (it : Iterator ρ ε S)

/-- Every call of `recv_packet()` takes no more than it is allowed to; there are no calls after the
    first `StopIteration`. -/
def Fits : S → List (Received ρ ε × ℚ) → Prop
  | _, [] => True
  | s, (received, elapsed) :: calls =>
    0 ≤ elapsed ∧ (elapsed : Delay) ≤ it.allowed s ∧
      match it.next s received elapsed with
      | (_, .stopIteration) => True
      | (s, _) => Fits s calls

/-- The time that the calls of `next()` take, up to the first `StopIteration`. -/
def spent : S → List (Received ρ ε × ℚ) → ℚ
  | _, [] => 0
  | s, (received, elapsed) :: calls =>
    elapsed +
      match it.next s received elapsed with
      | (_, .stopIteration) => 0
      | (s, _) => spent s calls

/-- However long they take, the calls of `next()` that end like this take no more than `total`. -/
def Covers (s : S) (total : Delay) (outcomes : List (Received ρ ε)) : Prop :=
  ∀ calls, calls.map Prod.fst = outcomes → it.Fits s calls → (it.spent s calls : Delay) ≤ total

/-- What the two iterators have in common. -/
structure Lawful : Prop where
  packet : ∀ s packet elapsed, ∃ s', it.next s (.packet packet) elapsed = (s', .packet packet) ∧
    it.allowed s' = recomputeTimeout (it.allowed s) elapsed
  osError : ∀ s elapsed, it.next s .osError elapsed = (s, .stopIteration)
  raised : ∀ s exc elapsed, it.next s (.raised exc) elapsed = (s, .raised exc)

end Iterator

theorem clientRecvIterator_lawful : (clientRecvIterator : Iterator ρ ε _).Lawful where
  packet timeout packet elapsed := by
    refine ⟨_, rfl, ?_⟩
    cases timeout with
    | none => rfl
    | some timeout => rfl
  osError _ _ := rfl
  raised _ _ _ := rfl

theorem asyncClientRecvIterator_lawful : (asyncClientRecvIterator : Iterator ρ ε _).Lawful where
  packet _ _ _ := ⟨_, rfl, rfl⟩
  osError _ _ := rfl
  raised _ _ _ := rfl

/-- No call follows one that has raised. -/
def NoCallAfterError : List (Received ρ ε) → Prop
  | [] | .osError :: _ => True
  | .packet _ :: outcomes => NoCallAfterError outcomes
  | .raised _ :: outcomes => outcomes = []

theorem add_recomputeTimeout {timeout : Delay} {elapsed : ℚ} (h : (elapsed : Delay) ≤ timeout) :
    (elapsed : Delay) + recomputeTimeout timeout elapsed = timeout := by
  induction timeout using WithTop.recTopCoe with
  | top => exact WithTop.add_top _
  | coe q =>
    have hle : elapsed ≤ q := by exact_mod_cast h
    rw [recomputeTimeout_coe, max_eq_right (sub_nonneg.2 hle)]
    exact_mod_cast add_sub_cancel elapsed q

namespace Iterator
variable {it : Iterator ρ ε S} {s : S} {calls : List (Received ρ ε × ℚ)}

/-- **Without a call after an exception, no more is spent than allowed.** -/
theorem Lawful.spent_le (hit : it.Lawful) (hs : 0 ≤ it.allowed s) (hfits : it.Fits s calls)
    (h : NoCallAfterError (calls.map Prod.fst)) : (it.spent s calls : Delay) ≤ it.allowed s := by
  induction calls generalizing s with
  | nil => exact hs
  | cons call calls ih =>
    obtain ⟨received, elapsed⟩ := call
    obtain ⟨-, hle, hrest⟩ := hfits
    rw [spent]
    cases received with
    | packet packet =>
      obtain ⟨s', hnext, hallowed⟩ := hit.packet s packet elapsed
      simp only [hnext] at hrest ⊢
      have hspent := ih (hallowed ▸ recomputeTimeout_nonneg _ _) hrest h
      calc ((elapsed + it.spent s' calls : ℚ) : Delay)
          = elapsed + (it.spent s' calls : Delay) := WithTop.coe_add _ _
        _ ≤ elapsed + it.allowed s' := by gcongr
        _ = it.allowed s := by rw [hallowed, add_recomputeTimeout hle]
    | osError =>
      simp only [hit.osError, add_zero]
      exact hle
    | raised exc =>
      obtain rfl : calls = [] := List.map_eq_nil_iff.1 h
      simp only [hit.raised, spent, add_zero]
      exact hle

/-- Calls that take no time. -/
def instantly (outcomes : List (Received ρ ε)) : List (Received ρ ε × ℚ) :=
  outcomes.map fun received => (received, 0)

theorem map_fst_instantly (outcomes : List (Received ρ ε)) :
    (instantly outcomes).map Prod.fst = outcomes := by
  rw [instantly, List.map_map]
  exact List.map_id _

theorem Lawful.fits_cons (hit : it.Lawful) {elapsed : ℚ} (hpos : 0 ≤ elapsed)
    (hle : (elapsed : Delay) ≤ it.allowed s) (received : Received ρ ε)
    (outcomes : List (Received ρ ε)) :
    it.Fits s ((received, elapsed) :: instantly outcomes) ∧
      it.spent s ((received, elapsed) :: instantly outcomes) = elapsed := by
  induction outcomes generalizing s received elapsed with
  | nil =>
    rw [instantly, List.map_nil, Fits, spent]
    cases received with
    | packet packet =>
      obtain ⟨s', hnext, -⟩ := hit.packet s packet elapsed
      simp only [hnext]
      exact ⟨⟨hpos, hle, trivial⟩, add_zero elapsed⟩
    | osError =>
      simp only [hit.osError]
      exact ⟨⟨hpos, hle, trivial⟩, add_zero elapsed⟩
    | raised exc =>
      simp only [hit.raised]
      exact ⟨⟨hpos, hle, trivial⟩, add_zero elapsed⟩
  | cons received' outcomes ih =>
    rw [Fits, spent]
    cases received with
    | packet packet =>
      obtain ⟨s', hnext, hallowed⟩ := hit.packet s packet elapsed
      have hs' : ((0 : ℚ) : Delay) ≤ it.allowed s' := hallowed ▸ recomputeTimeout_nonneg _ _
      obtain ⟨hfits, hspent⟩ := ih le_rfl hs' received'
      simp only [hnext]
      exact ⟨⟨hpos, hle, hfits⟩, by rw [instantly, List.map_cons, ← instantly, hspent, add_zero]⟩
    | osError =>
      simp only [hit.osError]
      exact ⟨⟨hpos, hle, trivial⟩, add_zero elapsed⟩
    | raised exc =>
      have hs : ((0 : ℚ) : Delay) ≤ it.allowed s := le_trans (by exact_mod_cast hpos) hle
      obtain ⟨hfits, hspent⟩ := ih le_rfl hs received'
      simp only [hit.raised]
      exact ⟨⟨hpos, hle, hfits⟩, by rw [instantly, List.map_cons, ← instantly, hspent, add_zero]⟩

/-- **With a call after an exception, each of the two may take all of the timeout.** -/
theorem Lawful.exists_overspent (hit : it.Lawful) {T : ℚ} (hT : 0 < T) (hs : it.allowed s = T)
    {outcomes : List (Received ρ ε)} (h : ¬ NoCallAfterError outcomes) :
    ∃ calls, calls.map Prod.fst = outcomes ∧ it.Fits s calls ∧ it.spent s calls = T + T := by
  induction outcomes generalizing s with
  | nil => exact absurd trivial h
  | cons received outcomes ih =>
    cases received with
    | packet packet =>
      obtain ⟨s', hnext, hallowed⟩ := hit.packet s packet 0
      have h0 : ((0 : ℚ) : Delay) ≤ it.allowed s := hs ▸ (by exact_mod_cast hT.le)
      have hs' : it.allowed s' = T := by rw [hallowed, recomputeTimeout_of_nonneg h0, hs]
      obtain ⟨calls, hmap, hfits, hspent⟩ := ih hs' h
      refine ⟨(.packet packet, 0) :: calls, congrArg _ hmap, ?_, ?_⟩
      · rw [Fits, hnext]
        exact ⟨le_rfl, h0, hfits⟩
      · simp only [spent, hnext, hspent, zero_add]
    | osError => exact absurd trivial h
    | raised exc =>
      obtain ⟨received', outcomes, rfl⟩ := List.exists_cons_of_ne_nil h
      obtain ⟨hfits, hspent⟩ := hit.fits_cons hT.le hs.ge received' outcomes
      refine ⟨(.raised exc, T) :: (received', T) :: instantly outcomes, ?_, ?_, ?_⟩
      · rw [List.map_cons, List.map_cons, map_fst_instantly]
      · rw [Fits, hit.raised]
        exact ⟨hT.le, hs.ge, hfits⟩
      · rw [spent, hit.raised]
        exact congrArg (T + ·) hspent

theorem Lawful.spent_eq_zero (hit : it.Lawful) (hs : it.allowed s = 0) (hfits : it.Fits s calls) :
    it.spent s calls = 0 := by
  induction calls generalizing s with
  | nil => rfl
  | cons call calls ih =>
    obtain ⟨received, elapsed⟩ := call
    obtain ⟨hpos, hle, hrest⟩ := hfits
    obtain rfl : elapsed = 0 := le_antisymm (by exact_mod_cast hs ▸ hle) hpos
    rw [spent, zero_add]
    cases received with
    | packet packet =>
      obtain ⟨s', hnext, hallowed⟩ := hit.packet s packet 0
      simp only [hnext] at hrest ⊢
      refine ih ?_ hrest
      rw [hallowed, recomputeTimeout_of_nonneg hle, hs]
    | osError => simp only [hit.osError]
    | raised exc =>
      simp only [hit.raised] at hrest ⊢
      exact ih hs hrest

/-- **When the timeout covers the whole iteration.** -/
theorem Lawful.covers_iff (hit : it.Lawful) {T : Delay} (hT : 0 ≤ T) (hs : it.allowed s = T)
    (outcomes : List (Received ρ ε)) :
    it.Covers s T outcomes ↔ T = 0 ∨ T = ⊤ ∨ NoCallAfterError outcomes := by
  constructor
  · intro h
    by_contra hnot
    obtain ⟨h0, htop, hcall⟩ : T ≠ 0 ∧ T ≠ ⊤ ∧ ¬ NoCallAfterError outcomes := by
      simpa only [not_or] using hnot
    lift T to ℚ using htop
    have hpos : 0 < T := lt_of_le_of_ne (by exact_mod_cast hT) (by exact_mod_cast h0.symm)
    obtain ⟨calls, hmap, hfits, hspent⟩ := hit.exists_overspent hpos hs hcall
    have hle : it.spent s calls ≤ T := by exact_mod_cast h calls hmap hfits
    linarith
  · rintro h calls rfl hfits
    rcases h with rfl | rfl | h
    · rw [hit.spent_eq_zero hs hfits]
      exact le_rfl
    · exact le_top
    · exact hs ▸ hit.spent_le (hs.symm ▸ hT) hfits h

end Iterator

/-- **The timeout of `iter_received_packets()` covers the whole iteration iff it is zero or
    infinite, or no call follows one that has raised.** -/
theorem recvIterator_timeout_iff {T : Delay} (hT : 0 ≤ T) (outcomes : List (Received ρ ε)) :
    (clientRecvIterator.Covers (some T) T outcomes ↔ T = 0 ∨ T = ⊤ ∨ NoCallAfterError outcomes) ∧
    (asyncClientRecvIterator.Covers (asyncInit (some T)) T outcomes ↔
      T = 0 ∨ T = ⊤ ∨ NoCallAfterError outcomes) :=
  ⟨clientRecvIterator_lawful.covers_iff hT rfl outcomes,
    asyncClientRecvIterator_lawful.covers_iff hT rfl outcomes⟩

/-- Ten seconds, two packets and an error at the end. -/
theorem recvIterator_timeout_packets :
    (0 : Delay) ≤ 10 ∧
      (clientRecvIterator : Iterator ℕ Unit _).Covers (some 10) 10
        [.packet 1, .packet 2, .osError] := by
  have hT : (0 : Delay) ≤ 10 := by decide
  let outcomes : List (Received ℕ Unit) := [.packet 1, .packet 2, .osError]
  have hcalls := recvIterator_timeout_iff hT outcomes
  exact ⟨hT, hcalls.1.2 (.inr (.inr trivial))⟩

/-- Ten seconds until a parse error, and ten seconds until the next packet. -/
theorem parse_error_not_counted :
    let calls : List (Received ℕ Unit × ℚ) := [(.raised (), 10), (.packet 1, 10)]
    (clientRecvIterator.Fits (some 10) calls ∧ clientRecvIterator.spent (some 10) calls = 20) ∧
      (asyncClientRecvIterator.Fits 10 calls ∧ asyncClientRecvIterator.spent 10 calls = 20) ∧
      ¬ clientRecvIterator.Covers (some 10) 10 (calls.map Prod.fst) ∧
      ¬ asyncClientRecvIterator.Covers 10 10 (calls.map Prod.fst) := by
  intro calls
  have h10 : ((10 : ℚ) : Delay) ≤ 10 := le_rfl
  have hpos : (0 : ℚ) ≤ 10 := by norm_num
  have hlt : ¬ ((20 : ℚ) : Delay) ≤ 10 := by decide
  have hsync : clientRecvIterator.Fits (some 10) calls ∧
      clientRecvIterator.spent (some 10) calls = 20 :=
    ⟨⟨hpos, h10, hpos, h10, trivial⟩, by norm_num [calls, Iterator.spent, clientRecvIterator]⟩
  have hasync : asyncClientRecvIterator.Fits 10 calls ∧
      asyncClientRecvIterator.spent 10 calls = 20 :=
    ⟨⟨hpos, h10, hpos, h10, trivial⟩, by norm_num [calls, Iterator.spent, asyncClientRecvIterator]⟩
  refine ⟨hsync, hasync, fun h => hlt ?_, fun h => hlt ?_⟩
  · exact hsync.2 ▸ h calls rfl hsync.1
  · exact hasync.2 ▸ h calls rfl hasync.1

end RecvIterator

end EasyNetwork
