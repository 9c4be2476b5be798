/-
  Labelled transition systems and their runs.

  A system is a partial step function: `step s a` is the next state when the action `a` is
  possible in `s`.  `run_inv` is the induction principle for what every run keeps, `run_inv_of`
  the one for runs whose steps meet a condition, and `meets_iff` says when this condition is
  exact.  `length_add_rank_le` bounds the length of a run whose steps lower a rank, `length_filter_le`
  the steps of one kind that a run can make, by a rank that these steps lower; `count_le` does it for
  a kind that depends on the state, by a rank that they raise.  `run_simulates` carries the runs of a
  system over to another one that takes some steps of its own for each step.
-/
import Mathlib.Data.List.Induction

namespace Trans

variable {σ α : Type} (step : σ → α → Option σ)

/-- The state after the actions; `none` if one of them is not possible. -/
def run (s : σ) : List α → Option σ
  | [] => some s
  | a :: as => (step s a).bind fun s => run s as

/-- Every step of the run meets the condition. -/
def Meets (ok : σ → α → Prop) (s : σ) : List α → Prop
  | [] => True
  | a :: as => ok s a ∧ ∀ s', step s a = some s' → Meets ok s' as

/-- How many steps of the run are of the kind. -/
def count (kind : σ → α → Bool) (s : σ) : List α → ℕ
  | [] => 0
  | a :: as => (kind s a).toNat + (step s a).elim 0 fun s => count kind s as

/-- What the run is for another system, which takes the steps `observe s a` when this one takes `a`. -/
def trace {β : Type} (observe : σ → α → List β) (s : σ) : List α → List β
  | [] => []
  | a :: as => observe s a ++ (step s a).elim [] fun s => trace observe s as

variable {step} {s s' : σ} {a : α} {as bs : List α}

@[simp] theorem run_nil : run step s [] = some s := rfl

@[simp] theorem run_cons : run step s (a :: as) = (step s a).bind fun s => run step s as := rfl

theorem run_cons_iff : run step s (a :: as) = some s' ↔
    ∃ m, step s a = some m ∧ run step m as = some s' := by
  rw [run_cons, Option.bind_eq_some_iff]

theorem run_append : run step s (as ++ bs) = (run step s as).bind fun s => run step s bs := by
  induction as generalizing s with
  | nil => rfl
  | cons a as ih =>
    rw [List.cons_append, run_cons, run_cons, Option.bind_assoc]
    exact congrArg (step s a).bind (funext fun _ => ih)

/-- **Forward simulation**: when every step is matched by a run of the other system, every run is. -/
theorem run_simulates {τ β : Type} {step' : τ → β → Option τ} {observe : σ → α → List β}
    {R : σ → τ → Prop} (hstep : ∀ s a s' t, R s t → step s a = some s' →
      ∃ t', run step' t (observe s a) = some t' ∧ R s' t') {t : τ} (hR : R s t)
    (h : run step s as = some s') :
    ∃ t', run step' t (trace step observe s as) = some t' ∧ R s' t' := by
  induction as generalizing s t with
  | nil =>
    cases h
    exact ⟨t, rfl, hR⟩
  | cons a as ih =>
    obtain ⟨m, hm, hrun⟩ := run_cons_iff.1 h
    obtain ⟨u, hu, hRm⟩ := hstep s a m t hR hm
    obtain ⟨t', ht', hR'⟩ := ih hRm hrun
    refine ⟨t', ?_, hR'⟩
    rw [trace, hm, run_append, hu]
    exact ht'

theorem meets_cons_some {ok : σ → α → Prop} {m : σ} (h : step s a = some m) :
    Meets step ok s (a :: as) ↔ ok s a ∧ Meets step ok m as := by
  constructor
  · rintro ⟨hok, hrest⟩
    exact ⟨hok, hrest m h⟩
  · rintro ⟨hok, hrest⟩
    refine ⟨hok, fun m' hm' => ?_⟩
    rw [h] at hm'
    cases hm'
    exact hrest

theorem meets_cons_none {ok : σ → α → Prop} (h : step s a = none) :
    Meets step ok s (a :: as) ↔ ok s a := by
  simp [Meets, h]

/-- A condition on the actions alone. -/
theorem meets_of_forall {ok : σ → α → Prop} (h : ∀ a ∈ as, ∀ s, ok s a) : Meets step ok s as := by
  induction as generalizing s with
  | nil => exact trivial
  | cons a as ih =>
    exact ⟨h a List.mem_cons_self s, fun _ _ => ih fun b hb => h b (List.mem_cons_of_mem a hb)⟩

/-- Two conditions that agree in the states of a run whose steps have met them. -/
theorem meets_congr {ok ok' : σ → α → Prop} {I : σ → Prop}
    (hok : ∀ s a s', I s → step s a = some s' → (ok s a ↔ ok' s a))
    (hstep : ∀ s a s', I s → ok' s a → step s a = some s' → I s') (hs : I s)
    (h : run step s as = some s') : Meets step ok s as ↔ Meets step ok' s as := by
  induction as generalizing s with
  | nil => exact Iff.rfl
  | cons a as ih =>
    obtain ⟨m, hm, hrun⟩ := run_cons_iff.1 h
    rw [meets_cons_some hm, meets_cons_some hm, hok s a m hs hm]
    exact and_congr_right fun ha => ih (hstep s a m hs ha hm) hrun

instance decidableMeets {ok : σ → α → Prop} [∀ s a, Decidable (ok s a)] :
    ∀ (s : σ) (as : List α), Decidable (Meets step ok s as)
  | _, [] => .isTrue trivial
  | s, a :: as =>
    match h : step s a with
    | none => decidable_of_iff _ (meets_cons_none h).symm
    | some m =>
      have : Decidable (Meets step ok m as) := decidableMeets m as
      decidable_of_iff _ (meets_cons_some h).symm

/-- What every step keeps, every run keeps, if its steps meet the condition under which the
    steps keep it. -/
theorem run_inv_of {ok : σ → α → Prop} {I : σ → Prop}
    (hstep : ∀ s a s', I s → ok s a → step s a = some s' → I s') (hs : I s)
    (hok : Meets step ok s as) (h : run step s as = some s') : I s' := by
  induction as generalizing s with
  | nil =>
    cases h
    exact hs
  | cons a as ih =>
    obtain ⟨m, hm, hrun⟩ := run_cons_iff.1 h
    exact ih (hstep s a m hs hok.1 hm) (hok.2 m hm) hrun

/-- What every step keeps, every run keeps. -/
theorem run_inv {I : σ → Prop} (hstep : ∀ s a s', I s → step s a = some s' → I s') (hs : I s)
    (h : run step s as = some s') : I s' := by
  induction as generalizing s with
  | nil =>
    cases h
    exact hs
  | cons a as ih =>
    obtain ⟨m, hm, hrun⟩ := run_cons_iff.1 h
    exact ih (hstep s a m hs hm) hrun

/-- When the steps that meet the condition keep `I`, and the others lead to `B`, which is never
    left, a run ends outside `B` iff its steps meet the condition. -/
theorem meets_iff (ok : σ → α → Prop) (I B : σ → Prop) (hdisj : ∀ s, I s → ¬ B s)
    (hgood : ∀ s a s', I s → ok s a → step s a = some s' → I s')
    (hbad : ∀ s a s', I s → ¬ ok s a → step s a = some s' → B s')
    (hstay : ∀ s a s', B s → step s a = some s' → B s') (hs : I s)
    (h : run step s as = some s') : Meets step ok s as ↔ ¬ B s' := by
  induction as generalizing s with
  | nil =>
    cases h
    exact iff_of_true trivial (hdisj _ hs)
  | cons a as ih =>
    obtain ⟨m, hm, hrun⟩ := run_cons_iff.1 h
    by_cases hok : ok s a
    · rw [meets_cons_some hm]
      exact (and_iff_right hok).trans (ih (hgood s a m hs hok hm) hrun)
    · refine iff_of_false (fun hmeets => hok hmeets.1) (not_not.2 ?_)
      exact run_inv hstay (hbad s a m hs hok hm) hrun

/-- The same in one direction, for runs whose actions have a property that keeps `B` from being
    left. -/
theorem of_not_meets {ok : σ → α → Prop} {I B : σ → Prop} {P : α → Prop}
    (hgood : ∀ s a s', I s → P a → ok s a → step s a = some s' → I s')
    (hbad : ∀ s a s', I s → P a → ¬ ok s a → step s a = some s' → B s')
    (hstay : ∀ s a s', B s → P a → step s a = some s' → B s') (hs : I s)
    (hP : ∀ a ∈ as, P a) (h : run step s as = some s') (hnot : ¬ Meets step ok s as) : B s' := by
  induction as generalizing s with
  | nil => exact absurd trivial hnot
  | cons a as ih =>
    obtain ⟨m, hm, hrun⟩ := run_cons_iff.1 h
    have hPa := hP a List.mem_cons_self
    have hrest : ∀ b ∈ as, P b := fun b hb => hP b (List.mem_cons_of_mem a hb)
    by_cases hok : ok s a
    · refine ih (hgood s a m hs hPa hok hm) hrest hrun fun hmeets => hnot ?_
      exact (meets_cons_some hm).2 ⟨hok, hmeets⟩
    · exact run_inv_of (fun s b s' hb (hPb : P b) => hstay s b s' hb hPb) (hbad s a m hs hPa hok hm)
        (meets_of_forall fun b hb _ => hrest b hb) hrun

/-- When every step that has a property lowers the rank, no run of them is longer than the rank of
    the state it starts from. -/
theorem length_add_rank_le {I : σ → Prop} {P : α → Prop} (rank : σ → ℕ)
    (hstep : ∀ s a s', I s → step s a = some s' → I s')
    (hlt : ∀ s a s', I s → P a → step s a = some s' → rank s' < rank s) (hs : I s)
    (hP : ∀ a ∈ as, P a) (h : run step s as = some s') : as.length + rank s' ≤ rank s := by
  induction as generalizing s with
  | nil =>
    cases h
    exact Nat.le_of_eq (Nat.zero_add _)
  | cons a as ih =>
    obtain ⟨m, hm, hrun⟩ := run_cons_iff.1 h
    have hlower := hlt s a m hs (hP a List.mem_cons_self) hm
    have hrest := ih (hstep s a m hs hm) (fun b hb => hP b (List.mem_cons_of_mem a hb)) hrun
    rw [List.length_cons]
    omega

/-- When the steps of one kind lower the rank, and the others do not raise it, no run makes more of
    them than the rank of the state it starts from. -/
theorem length_filter_le {I : σ → Prop} (move : α → Bool) (rank : σ → ℕ)
    (hstep : ∀ s a s', I s → step s a = some s' → I s')
    (hmove : ∀ s a s', I s → move a = true → step s a = some s' → rank s' < rank s)
    (hother : ∀ s a s', I s → move a = false → step s a = some s' → rank s' ≤ rank s)
    (hs : I s) (h : run step s as = some s') : (as.filter move).length + rank s' ≤ rank s := by
  induction as generalizing s with
  | nil =>
    cases h
    exact Nat.le_of_eq (Nat.zero_add _)
  | cons a as ih =>
    obtain ⟨m, hm, hrun⟩ := run_cons_iff.1 h
    have hrest := ih (hstep s a m hs hm) hrun
    rcases ha : move a with _ | _
    · rw [List.filter_cons_of_neg (by rw [ha]; exact Bool.false_ne_true)]
      exact Nat.le_trans hrest (hother s a m hs ha hm)
    · rw [List.filter_cons_of_pos ha, List.length_cons]
      have hlt := hmove s a m hs ha hm
      omega

/-- When the steps of one kind raise the rank, and the others do not lower it, a run makes at most as
    many of them as the rank of the state it ends in. -/
theorem count_le {ok : σ → α → Prop} {I : σ → Prop} {kind : σ → α → Bool} (rank : σ → ℕ)
    (hstep : ∀ s a s', I s → step s a = some s' → I s')
    (hkind : ∀ s a s', I s → ok s a → kind s a = true → step s a = some s' → rank s < rank s')
    (hother : ∀ s a s', I s → kind s a = false → step s a = some s' → rank s ≤ rank s') (hs : I s)
    (hok : Meets step ok s as) (h : run step s as = some s') :
    rank s + count step kind s as ≤ rank s' := by
  induction as generalizing s with
  | nil =>
    cases h
    exact Nat.le_refl _
  | cons a as ih =>
    obtain ⟨m, hm, hrun⟩ := run_cons_iff.1 h
    have hrest := ih (hstep s a m hs hm) (hok.2 m hm) hrun
    simp only [count, hm, Option.elim_some]
    rcases ha : kind s a with _ | _
    · have hle := hother s a m hs ha hm
      simp only [Bool.toNat_false]
      omega
    · have hlt := hkind s a m hs hok.1 ha hm
      simp only [Bool.toNat_true]
      omega

end Trans
