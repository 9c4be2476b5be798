/-
  The first position at which an automaton halts.

  `haltsAt s l` is the number of elements of `l` that are read from the state `s` until the
  automaton halts, and `Runs s l s'` says that it reads all of `l` without halting.  Runs
  compose, so the position does not depend on where the input is cut (`haltsAt_append`).
-/
import Mathlib.Data.List.Induction

namespace Automaton

variable {S α : Type} (step : S → α → S) (halted : S → Bool)

/-- How many elements are read until the state is a halting one. -/
def haltsAt (s : S) : List α → Option ℕ
  | [] => none
  | x :: xs => if halted (step s x) then some 1 else (haltsAt (step s x) xs).map (· + 1)

/-- All of the list is read without halting. -/
def Runs (s : S) (l : List α) (s' : S) : Prop :=
  haltsAt step halted s l = none ∧ l.foldl step s = s'

variable {step halted} {s s' : S} {x : α} {l t : List α} {k : ℕ}

@[simp] theorem runs_nil : Runs step halted s [] s' ↔ s = s' := by simp [Runs, haltsAt]

@[simp] theorem runs_cons : Runs step halted s (x :: l) s' ↔
    halted (step s x) = false ∧ Runs step halted (step s x) l s' := by
  simp only [Runs, haltsAt, List.foldl_cons]
  cases halted (step s x) <;> simp

theorem runs_append : Runs step halted s (l ++ t) s' ↔
    ∃ m, Runs step halted s l m ∧ Runs step halted m t s' := by
  induction l generalizing s with
  | nil => simp
  | cons x l ih => simp [ih, and_assoc]

theorem Runs.append {m : S} (h1 : Runs step halted s l m) (h2 : Runs step halted m t s') :
    Runs step halted s (l ++ t) s' := runs_append.2 ⟨m, h1, h2⟩

/-- Elements that change nothing are passed over. -/
theorem runs_of_forall (h : ∀ x ∈ l, step s x = s) (hs : halted s = false) :
    Runs step halted s l s := by
  induction l with
  | nil => simp
  | cons x l ih =>
    have hx := h x List.mem_cons_self
    rw [runs_cons, hx]
    exact ⟨hs, ih fun y hy => h y (List.mem_cons_of_mem _ hy)⟩

/-- A run does not reach a halting state. -/
theorem Runs.not_halted (h : Runs step halted s l s') (hs : halted s = false) :
    halted s' = false := by
  induction l generalizing s with
  | nil => rwa [← runs_nil.1 h]
  | cons x l ih =>
    obtain ⟨h1, h2⟩ := runs_cons.1 h
    exact ih h2 h1

/-- After a run, the automaton goes on from the state that was reached. -/
theorem haltsAt_append (h : Runs step halted s l s') (t : List α) :
    haltsAt step halted s (l ++ t) = (haltsAt step halted s' t).map (l.length + ·) := by
  induction l generalizing s with
  | nil => rw [runs_nil.1 h]; simp
  | cons x l ih =>
    obtain ⟨h1, h2⟩ := runs_cons.1 h
    simp only [List.cons_append, haltsAt, h1, ih h2, Option.map_map, List.length_cons]
    rcases haltsAt step halted s' t with _ | k
    · rfl
    · simp; omega

/-- What comes after the halting position is not read. -/
theorem haltsAt_append_of_some (h : haltsAt step halted s l = some k) (t : List α) :
    haltsAt step halted s (l ++ t) = some k := by
  induction l generalizing s k with
  | nil => simp [haltsAt] at h
  | cons x l ih =>
    simp only [List.cons_append, haltsAt] at h ⊢
    split_ifs at h ⊢ with hx
    · exact h
    · obtain ⟨k', hk, rfl⟩ := Option.map_eq_some_iff.1 h
      rw [ih hk]; rfl

theorem haltsAt_pos (h : haltsAt step halted s l = some k) : 0 < k := by
  cases l with
  | nil => simp [haltsAt] at h
  | cons x l =>
    simp only [haltsAt] at h
    split_ifs at h with hx
    · cases h; exact Nat.one_pos
    · obtain ⟨k', -, rfl⟩ := Option.map_eq_some_iff.1 h; exact Nat.succ_pos _

theorem haltsAt_le (h : haltsAt step halted s l = some k) : k ≤ l.length := by
  induction l generalizing s k with
  | nil => simp [haltsAt] at h
  | cons x l ih =>
    simp only [haltsAt] at h
    split_ifs at h with hx
    · cases h; simp
    · obtain ⟨k', hk, rfl⟩ := Option.map_eq_some_iff.1 h
      have := ih hk
      simp; omega

/-- A run that is continued by more input reaches beyond it. -/
theorem length_lt_haltsAt (h : Runs step halted s l s')
    (hk : haltsAt step halted s (l ++ t) = some k) : l.length < k := by
  rw [haltsAt_append h] at hk
  obtain ⟨k', hk', rfl⟩ := Option.map_eq_some_iff.1 hk
  have := haltsAt_pos hk'
  omega

end Automaton
