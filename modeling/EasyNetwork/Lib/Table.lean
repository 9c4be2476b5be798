/-
  Tables that change at one place at a time.

  Each of the parties of a system is somewhere, and a step moves one of them.  `Owns`: a lock is held
  by the party whose place says so, and by no other; it stays so when the party moves on, takes the
  lock, or gives it back.  `sum_update`: what a move changes in a sum over the parties.
-/
import Mathlib.Algebra.BigOperators.Group.Finset.Piecewise
import Mathlib.Logic.Function.Basic

namespace Table

section
variable {τ σ : Type} {owner : Option τ} {f : τ → σ} {holds : σ → Prop} {t u : τ} {x : σ}

/-- The owner, if any, is the one whose place says so. -/
def Owns (owner : Option τ) (holds : σ → Prop) (f : τ → σ) : Prop :=
  ∀ t, owner = some t ↔ holds (f t)

theorem Owns.unique (h : Owns owner holds f) (ht : holds (f t)) (hu : holds (f u)) : t = u :=
  Option.some.inj (((h t).2 ht).symm.trans ((h u).2 hu))

theorem Owns.not_holds (h : Owns none holds f) (t : τ) : ¬ holds (f t) := fun ht => by
  cases (h t).2 ht

variable [DecidableEq τ]

/-- A party moves on. -/
theorem Owns.keep (h : Owns owner holds f) (hx : holds x ↔ holds (f t)) :
    Owns owner holds (Function.update f t x) := by
  intro u
  by_cases hu : u = t
  · subst hu
    rw [Function.update_self, hx]
    exact h u
  · rw [Function.update_of_ne hu]
    exact h u

/-- A party takes the lock. -/
theorem Owns.acquire (h : Owns none holds f) (hx : holds x) :
    Owns (some t) holds (Function.update f t x) := by
  intro u
  by_cases hu : u = t
  · subst hu
    rw [Function.update_self]
    exact iff_of_true rfl hx
  · rw [Function.update_of_ne hu]
    exact iff_of_false (fun hc => hu (Option.some.inj hc).symm) (h.not_holds u)

/-- The owner gives the lock back. -/
theorem Owns.release (h : Owns (some t) holds f) (hx : ¬ holds x) :
    Owns none holds (Function.update f t x) := by
  intro u
  by_cases hu : u = t
  · subst hu
    rw [Function.update_self]
    exact iff_of_false nofun hx
  · rw [Function.update_of_ne hu]
    exact iff_of_false nofun fun hc => hu (Option.some.inj ((h u).2 hc)).symm

end

/-- One term of a sum changes. -/
theorem sum_update {τ σ : Type} [DecidableEq τ] {parties : Finset τ} {t : τ} (ht : t ∈ parties)
    (f : τ → σ) (rank : σ → ℕ) (x : σ) :
    ∑ u ∈ parties, rank (Function.update f t x u) + rank (f t) =
      ∑ u ∈ parties, rank (f u) + rank x := by
  have hnew : ∑ u ∈ parties, rank (Function.update f t x u) =
      rank x + ∑ u ∈ parties.erase t, rank (f u) := by
    rw [← Finset.sdiff_singleton_eq_erase, ← Finset.sum_update_of_mem ht]
    exact Finset.sum_congr rfl fun u _ => Function.apply_update (fun _ => rank) f t x u
  rw [hnew, ← Finset.add_sum_erase parties (fun u => rank (f u)) ht]
  omega

end Table
