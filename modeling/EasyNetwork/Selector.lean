/-
  The blocking operations of the selector-based transports
  (`lowlevel/api_sync/transports/base_selector.py`).

  `_retry` calls a non-blocking operation until it does not block, and polls the file
  descriptor in between.  Time is counted in exact rationals, with `⊤` for `math.inf`, and
  `Clock` adds up the time that was spent in the selector.

  `retry_spec`: `_retry` gives the result of the first call that does not block, or raises
  `TimeoutError` when all of the timeout has been spent.
-/
import Mathlib.Algebra.Order.Field.Rat
import Mathlib.Algebra.Order.Monoid.WithTop
import Mathlib.Tactic.Linarith

namespace EasyNetwork

/-- A delay in seconds (`float`, without NaN). -/
abbrev Delay := WithTop ℚ

inductive Errno where
  | EBADF
  | ETIMEDOUT
  deriving DecidableEq, Repr

/-- What a transport may raise. -/
inductive TransportError where
  | valueError (message : String)
  | runtimeError (message : String)
  | indexError (message : String)
  | busyResource (message : String)
  | osError (errno : Errno)
  deriving DecidableEq, Repr

/-- `_utils.validate_timeout_delay`. -/
def validateTimeoutDelay (delay : Delay) (positiveCheck : Bool) : Except TransportError Delay :=
  if positiveCheck ∧ delay < 0 then .error (.valueError "Invalid delay: negative value")
  else .ok delay

/-- `ElapsedTime.recompute_timeout`. -/
def recomputeTimeout (oldTimeout : Delay) (elapsedTime : ℚ) : Delay :=
  let newTimeout := oldTimeout.map (· - elapsedTime)
  if newTimeout < 0 then 0 else newTimeout

/-- `selectors.EVENT_READ` and `selectors.EVENT_WRITE`. -/
inductive Event where
  | read
  | write
  deriving DecidableEq, Repr

/-- How a non-blocking operation ends. -/
inductive Attempt (R : Type) where
  | result (r : R)
  | wouldBlockOnRead
  | wouldBlockOnWrite

/-- The selectors that a transport creates: what the `i`-th `select()` answers, whether the file
    descriptor is available and the time that the call took. -/
structure Selector where
  select : ℕ → Event → Delay → Bool × ℚ
  /-- an empty answer comes after the requested time -/
  empty_elapsed : ∀ i event timeout, (select i event timeout).1 = false →
    timeout ≤ (select i event timeout).2

/-- The calls of `select()` and the time that was spent in them. -/
structure Clock where
  selects : ℕ := 0
  elapsed : ℚ := 0

/-- `SelectorBaseTransport`. -/
structure SelectorBaseTransport where
  retryInterval : Delay
  readFileno : ℤ
  writeFileno : ℤ
  retryInterval_pos : 0 < retryInterval

namespace SelectorBaseTransport
variable (transport : SelectorBaseTransport) (selector : Selector)

/-- The rest of the loop body after `WouldBlockOnRead` or `WouldBlockOnWrite`: the timeout for
    the next attempt. -/
def poll (event : Event) (fileno : ℤ) (timeout : Delay) (clock : Clock) :
    Except TransportError Delay × Clock :=
  if timeout ≤ 0 then (.error (.osError .ETIMEDOUT), clock)
  else
    let isRetryInterval := ¬ timeout ≤ transport.retryInterval
    let waitTime := if timeout ≤ transport.retryInterval then timeout else transport.retryInterval
    if fileno < 0 then (.error (.osError .EBADF), clock)
    else
      let (available, elapsed) := selector.select clock.selects event waitTime
      let clock := { selects := clock.selects + 1, elapsed := clock.elapsed + elapsed }
      if waitTime = ⊤ then
        if available then (.ok timeout, clock)
        else (.error (.runtimeError "timeout error with infinite timeout"), clock)
      else
        let timeout := recomputeTimeout timeout elapsed
        if ¬ available ∧ ¬ isRetryInterval then (.error (.osError .ETIMEDOUT), clock)
        else (.ok timeout, clock)

/-- `while True` in `_retry`. -/
def retryLoop {σ R : Type} (callback : σ → Attempt R × σ) : ℕ → Delay → σ → Clock →
    Option (Except TransportError (R × Delay) × σ × Clock)
  | 0, _, _, _ => none
  | fuel + 1, timeout, s, clock =>
    match callback s with
    | (.result r, s) => some (.ok (r, timeout), s, clock)
    | (.wouldBlockOnRead, s) =>
      match transport.poll selector .read transport.readFileno timeout clock with
      | (.error e, clock) => some (.error e, s, clock)
      | (.ok timeout, clock) => retryLoop callback fuel timeout s clock
    | (.wouldBlockOnWrite, s) =>
      match transport.poll selector .write transport.writeFileno timeout clock with
      | (.error e, clock) => some (.error e, s, clock)
      | (.ok timeout, clock) => retryLoop callback fuel timeout s clock

/-- `_retry`: the result of `callback`, and what is left of the timeout. -/
def retry {σ R : Type} (callback : σ → Attempt R × σ) (fuel : ℕ) (timeout : Delay) (s : σ)
    (clock : Clock) : Option (Except TransportError (R × Delay) × σ × Clock) :=
  match validateTimeoutDelay timeout true with
  | .error e => some (.error e, s, clock)
  | .ok timeout => transport.retryLoop selector callback fuel timeout s clock

end SelectorBaseTransport

theorem le_recomputeTimeout (oldTimeout : Delay) (elapsedTime : ℚ) :
    oldTimeout ≤ recomputeTimeout oldTimeout elapsedTime + elapsedTime := by
  induction oldTimeout using WithTop.recTopCoe with
  | top => exact le_rfl
  | coe q =>
    rw [recomputeTimeout, WithTop.map_coe]
    split_ifs with h
    · have hq : q - elapsedTime < 0 := by exact_mod_cast h
      rw [zero_add]
      exact_mod_cast (sub_neg.1 hq).le
    · exact_mod_cast (sub_add_cancel q elapsedTime).ge

theorem recomputeTimeout_nonneg (oldTimeout : Delay) (elapsedTime : ℚ) :
    0 ≤ recomputeTimeout oldTimeout elapsedTime := by
  rw [recomputeTimeout]
  split_ifs with h
  · exact le_rfl
  · exact not_lt.1 h

theorem recomputeTimeout_coe (q elapsed : ℚ) :
    recomputeTimeout (q : Delay) elapsed = ((max 0 (q - elapsed) : ℚ) : Delay) := by
  rw [recomputeTimeout, WithTop.map_coe]
  by_cases h : q - elapsed < 0
  · rw [if_pos (by exact_mod_cast h), max_eq_left h.le]
    rfl
  · rw [if_neg (by exact_mod_cast h), max_eq_right (not_lt.1 h)]

/-- What is left is the difference, if it is not negative. -/
theorem recomputeTimeout_eq_max (timeout : Delay) (elapsed : ℚ) :
    recomputeTimeout timeout elapsed = max 0 (timeout.map (· - elapsed)) := by
  induction timeout using WithTop.recTopCoe with
  | top => rfl
  | coe q =>
    rw [recomputeTimeout_coe, WithTop.map_coe]
    exact WithTop.coe_max _ _

theorem recomputeTimeout_recomputeTimeout (timeout : Delay) (elapsed : ℚ) {elapsed' : ℚ}
    (h : 0 ≤ elapsed') :
    recomputeTimeout (recomputeTimeout timeout elapsed) elapsed' =
      recomputeTimeout timeout (elapsed + elapsed') := by
  induction timeout using WithTop.recTopCoe with
  | top => rfl
  | coe q =>
    rw [recomputeTimeout_coe, recomputeTimeout_coe, recomputeTimeout_coe]
    congr 1
    rcases le_total 0 (q - elapsed) with hpos | hneg
    · rw [max_eq_right hpos, sub_sub]
    · rw [max_eq_left hneg, max_eq_left (by linarith), max_eq_left (by linarith)]

theorem recomputeTimeout_of_nonneg {timeout : Delay} (h : 0 ≤ timeout) :
    recomputeTimeout timeout 0 = timeout := by
  induction timeout using WithTop.recTopCoe with
  | top => rfl
  | coe q => rw [recomputeTimeout_coe, sub_zero, max_eq_right (by exact_mod_cast h)]

theorem recomputeTimeout_zero_left {elapsed : ℚ} (h : 0 ≤ elapsed) :
    recomputeTimeout 0 elapsed = 0 := by
  have hcoe := recomputeTimeout_coe 0 elapsed
  rwa [zero_sub, max_eq_left (neg_nonpos.2 h)] at hcoe

/-- A wait within what is left. -/
theorem add_le_of_le_recomputeTimeout {timeout : Delay} {elapsed wait : ℚ}
    (h : (elapsed : Delay) ≤ timeout) (hwait : (wait : Delay) ≤ recomputeTimeout timeout elapsed) :
    ((elapsed + wait : ℚ) : Delay) ≤ timeout := by
  induction timeout using WithTop.recTopCoe with
  | top => exact le_top
  | coe q =>
    have hle : elapsed ≤ q := by exact_mod_cast h
    rw [recomputeTimeout_coe, max_eq_right (sub_nonneg.2 hle)] at hwait
    have hwait' : wait ≤ q - elapsed := by exact_mod_cast hwait
    exact_mod_cast (by linarith : elapsed + wait ≤ q)

namespace SelectorBaseTransport
variable {transport : SelectorBaseTransport} {selector : Selector} {σ R : Type}
  {callback : σ → Attempt R × σ} {total timeout : Delay} {s : σ} {clock : Clock}

/-- `total` has been spent, up to `timeout`. -/
def Accounts (total timeout : Delay) (clock : Clock) : Prop :=
  0 ≤ timeout ∧ total ≤ timeout + clock.elapsed

theorem eq_top_of_wait {waitTime : Delay}
    (hwait : waitTime = if timeout ≤ transport.retryInterval then timeout
      else transport.retryInterval) (h : waitTime = ⊤) : timeout = ⊤ := by
  rw [h] at hwait
  split_ifs at hwait with hle
  · exact hwait.symm
  · exact absurd (hwait ▸ not_le.1 hle) not_top_lt

variable (transport selector) in
/-- **What a wait can do.**  It lasts for the shorter one of the two times, and gives up only if
    nothing has come and all of the timeout is over. -/
theorem poll_waits (event : Event) {fileno : ℤ} (h0 : ¬ timeout ≤ 0) (hfile : ¬ fileno < 0)
    (clock : Clock) : ∃ waitTime available elapsed,
      (waitTime = if timeout ≤ transport.retryInterval then timeout
        else transport.retryInterval) ∧
      selector.select clock.selects event waitTime = (available, elapsed) ∧
      (transport.poll selector event fileno timeout clock =
          (.ok (recomputeTimeout timeout elapsed), ⟨clock.selects + 1, clock.elapsed + elapsed⟩) ∨
        transport.poll selector event fileno timeout clock =
          (.error (.osError .ETIMEDOUT), ⟨clock.selects + 1, clock.elapsed + elapsed⟩) ∧
        available = false ∧ waitTime = timeout ∧ timeout ≤ elapsed) := by
  obtain ⟨waitTime, hwait⟩ : ∃ w, w = if timeout ≤ transport.retryInterval then timeout
    else transport.retryInterval := ⟨_, rfl⟩
  rcases hselect : selector.select clock.selects event waitTime with ⟨available, elapsed⟩
  have hempty : available = false → waitTime ≤ elapsed := by
    intro ha
    have := selector.empty_elapsed clock.selects event waitTime
    rw [hselect] at this
    exact this ha
  refine ⟨waitTime, available, elapsed, hwait, hselect, ?_⟩
  simp only [poll, h0, hfile, ← hwait, hselect, if_false]
  by_cases htop : waitTime = ⊤
  · -- nothing is measured, but there is nothing to count down either
    have havailable : available = true := by
      rcases available with _ | _
      · exact absurd (htop ▸ hempty rfl) (by simp)
      · rfl
    left
    rw [if_pos htop, if_pos havailable, eq_top_of_wait hwait htop]
    rfl
  · by_cases hgive : ¬ available = true ∧ ¬ ¬ timeout ≤ transport.retryInterval
    · right
      obtain ⟨ha, hle⟩ := hgive
      have ha := Bool.eq_false_iff.2 ha
      have hwait := hwait.trans (if_pos (not_not.1 hle))
      refine ⟨?_, ha, hwait, hwait ▸ hempty ha⟩
      rw [if_neg htop, if_pos ⟨Bool.eq_false_iff.1 ha, hle⟩]
    · left
      rw [if_neg htop, if_neg hgive]

variable (transport selector) in
/-- **Step lemma.** A poll goes on with what is left of the timeout, and gives up when all of
    it has been spent. -/
theorem poll_spec (event : Event) {fileno : ℤ} (hfile : 0 ≤ fileno)
    (h : Accounts total timeout clock) :
    (∃ timeout' clock', transport.poll selector event fileno timeout clock =
        (.ok timeout', clock') ∧ Accounts total timeout' clock') ∨
      ∃ clock', transport.poll selector event fileno timeout clock =
        (.error (.osError .ETIMEDOUT), clock') ∧ total ≤ clock'.elapsed := by
  obtain ⟨hpos, htotal⟩ := h
  by_cases h0 : timeout ≤ 0
  · refine .inr ⟨clock, by simp only [poll, h0, if_true], ?_⟩
    obtain rfl : timeout = 0 := le_antisymm h0 hpos
    rwa [zero_add] at htotal
  obtain ⟨-, -, elapsed, -, -, hpoll | ⟨hpoll, -, -, hle⟩⟩ :=
    poll_waits transport selector event h0 (not_lt.2 hfile) clock
  · refine .inl ⟨_, _, hpoll, recomputeTimeout_nonneg _ _, ?_⟩
    calc total ≤ timeout + clock.elapsed := htotal
      _ ≤ recomputeTimeout timeout elapsed + elapsed + clock.elapsed := by
        gcongr
        exact le_recomputeTimeout _ _
      _ = recomputeTimeout timeout elapsed + ((clock.elapsed + elapsed : ℚ) : Delay) := by
        rw [add_assoc, add_comm (elapsed : Delay)]; rfl
  · refine .inr ⟨_, hpoll, ?_⟩
    calc total ≤ timeout + clock.elapsed := htotal
      _ ≤ elapsed + clock.elapsed := by gcongr
      _ = ((clock.elapsed + elapsed : ℚ) : Delay) := by rw [add_comm]; rfl

section
variable {J : σ → Prop} {μ : σ → ℕ}

/-- The attempts that block keep `J`. -/
def Blocks (callback : σ → Attempt R × σ) (J : σ → Prop) : Prop :=
  ∀ s s', J s → callback s = (.wouldBlockOnRead, s') ∨ callback s = (.wouldBlockOnWrite, s') → J s'

variable (transport selector callback) in
/-- **What an iteration can do.**  The attempt gives a result, or it blocks and one of the two
    descriptors is polled. -/
theorem retryLoop_succ (fuel : ℕ) (timeout : Delay) (s : σ) (clock : Clock) :
    (∃ r s', callback s = (.result r, s') ∧
      transport.retryLoop selector callback (fuel + 1) timeout s clock =
        some (.ok (r, timeout), s', clock)) ∨
    ∃ event fileno s', (fileno = transport.readFileno ∨ fileno = transport.writeFileno) ∧
      (callback s = (.wouldBlockOnRead, s') ∨ callback s = (.wouldBlockOnWrite, s')) ∧
      transport.retryLoop selector callback (fuel + 1) timeout s clock =
        match transport.poll selector event fileno timeout clock with
        | (.error e, clock) => some (.error e, s', clock)
        | (.ok timeout, clock) => transport.retryLoop selector callback fuel timeout s' clock := by
  rcases hcall : callback s with ⟨r | _ | _, s'⟩
  · exact .inl ⟨r, s', rfl, by simp only [retryLoop, hcall]⟩
  · exact .inr ⟨.read, _, s', .inl rfl, .inl rfl, by simp only [retryLoop, hcall]⟩
  · exact .inr ⟨.write, _, s', .inr rfl, .inr rfl, by simp only [retryLoop, hcall]⟩

/-- What is returned is the result of an attempt. -/
theorem retryLoop_ok (hblock : Blocks callback J) {fuel : ℕ} {r : R} {timeout' : Delay} {s' : σ}
    {clock' : Clock} (hs : J s)
    (h : transport.retryLoop selector callback fuel timeout s clock =
      some (.ok (r, timeout'), s', clock')) :
    ∃ s₀, J s₀ ∧ callback s₀ = (.result r, s') := by
  induction fuel generalizing timeout s clock with
  | zero => cases h
  | succ fuel ih =>
    obtain ⟨r, s₁, hcall, hloop⟩ | ⟨event, fileno, s₁, -, hcall, hloop⟩ :=
      retryLoop_succ transport selector callback fuel timeout s clock
    · cases hloop.symm.trans h
      exact ⟨s, hs, hcall⟩
    · rw [hloop] at h
      rcases hpoll : transport.poll selector event fileno timeout clock with ⟨_ | _, clock₁⟩ <;>
        simp only [hpoll] at h
      · cases h
      · exact ih (hblock s s₁ hs hcall) h

/-- When the loop raises, no attempt has given a result. -/
theorem retryLoop_error (hblock : Blocks callback J) {fuel : ℕ} {e : TransportError} {s' : σ}
    {clock' : Clock} (hs : J s)
    (h : transport.retryLoop selector callback fuel timeout s clock = some (.error e, s', clock')) :
    J s' := by
  induction fuel generalizing timeout s clock with
  | zero => cases h
  | succ fuel ih =>
    obtain ⟨r, s₁, -, hloop⟩ | ⟨event, fileno, s₁, -, hcall, hloop⟩ :=
      retryLoop_succ transport selector callback fuel timeout s clock
    · cases hloop.symm.trans h
    · have hs₁ := hblock s s₁ hs hcall
      rw [hloop] at h
      rcases hpoll : transport.poll selector event fileno timeout clock with ⟨_ | _, clock₁⟩ <;>
        simp only [hpoll] at h
      · cases h
        exact hs₁
      · exact ih hs₁ h

/-- **Run lemma.** When the attempts block finitely many times, the loop gives a result, or it
    raises `TimeoutError` when all of the timeout has been spent. -/
theorem retryLoop_spec (hread : 0 ≤ transport.readFileno) (hwrite : 0 ≤ transport.writeFileno)
    (hblock : Blocks callback J)
    (hμ : ∀ s s', J s → callback s = (.wouldBlockOnRead, s') ∨
      callback s = (.wouldBlockOnWrite, s') → μ s' < μ s)
    {fuel : ℕ} (hfuel : μ s < fuel) (hs : J s) (h : Accounts total timeout clock) :
    (∃ r timeout' s' clock', transport.retryLoop selector callback fuel timeout s clock =
        some (.ok (r, timeout'), s', clock') ∧ Accounts total timeout' clock') ∨
      ∃ s' clock', transport.retryLoop selector callback fuel timeout s clock =
        some (.error (.osError .ETIMEDOUT), s', clock') ∧ J s' ∧ total ≤ clock'.elapsed := by
  induction fuel generalizing timeout s clock with
  | zero => omega
  | succ fuel ih =>
    obtain ⟨r, s₁, -, hloop⟩ | ⟨event, fileno, s₁, hfileno, hcall, hloop⟩ :=
      retryLoop_succ transport selector callback fuel timeout s clock
    · exact .inl ⟨r, timeout, s₁, clock, hloop, h⟩
    · have hs₁ := hblock s s₁ hs hcall
      have hlt := hμ s s₁ hs hcall
      have hfile : 0 ≤ fileno := by
        rcases hfileno with rfl | rfl
        · exact hread
        · exact hwrite
      rw [hloop]
      rcases poll_spec transport selector event hfile h with
        ⟨timeout₁, clock₁, hpoll, h₁⟩ | ⟨clock₁, hpoll, h₁⟩
      · simp only [hpoll]
        exact ih (by omega) hs₁ h₁
      · simp only [hpoll]
        exact .inr ⟨s₁, clock₁, rfl, hs₁, h₁⟩

theorem retry_ok (hblock : Blocks callback J) {fuel : ℕ} {r : R} {timeout' : Delay} {s' : σ}
    {clock' : Clock} (hs : J s)
    (h : transport.retry selector callback fuel timeout s clock =
      some (.ok (r, timeout'), s', clock')) :
    ∃ s₀, J s₀ ∧ callback s₀ = (.result r, s') := by
  rw [retry] at h
  rcases hvalid : validateTimeoutDelay timeout true with e | timeout₁ <;> simp only [hvalid] at h
  · cases h
  · exact retryLoop_ok hblock hs h

theorem retry_error (hblock : Blocks callback J) {fuel : ℕ} {e : TransportError} {s' : σ}
    {clock' : Clock} (hs : J s)
    (h : transport.retry selector callback fuel timeout s clock = some (.error e, s', clock')) :
    J s' := by
  rw [retry] at h
  rcases hvalid : validateTimeoutDelay timeout true with e | timeout₁ <;> simp only [hvalid] at h
  · cases h
    exact hs
  · exact retryLoop_error hblock hs h

variable (transport selector) in
/-- When the attempts block finitely many times, `_retry` gives a result, or it raises
    `TimeoutError` when all of the timeout has been spent. -/
theorem retry_spec (hread : 0 ≤ transport.readFileno) (hwrite : 0 ≤ transport.writeFileno)
    (hblock : Blocks callback J)
    (hμ : ∀ s s', J s → callback s = (.wouldBlockOnRead, s') ∨
      callback s = (.wouldBlockOnWrite, s') → μ s' < μ s)
    {fuel : ℕ} (hfuel : μ s < fuel) (hs : J s) (h : Accounts total timeout clock) :
    (∃ r timeout' s' clock', transport.retry selector callback fuel timeout s clock =
        some (.ok (r, timeout'), s', clock') ∧ Accounts total timeout' clock') ∨
      ∃ s' clock', transport.retry selector callback fuel timeout s clock =
        some (.error (.osError .ETIMEDOUT), s', clock') ∧ J s' ∧ total ≤ clock'.elapsed := by
  have hvalid : validateTimeoutDelay timeout true = .ok timeout := by
    rw [validateTimeoutDelay, if_neg]
    rintro ⟨-, hneg⟩
    exact not_lt.2 h.1 hneg
  simp only [retry, hvalid]
  exact retryLoop_spec hread hwrite hblock hμ hfuel hs h

end

end SelectorBaseTransport

end EasyNetwork
