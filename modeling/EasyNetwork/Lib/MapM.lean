/-
  `mapM` in `Option` and in `Except`: it succeeds iff it does so for each element.
-/
import Mathlib.Data.List.Forall2

namespace MapM

variable {α β ε : Type} {a : α} {l : List α} {l' : List β}

section
variable {f : α → Option β}

theorem cons_eq_some : (a :: l).mapM f = some l' ↔
    ∃ b bs, f a = some b ∧ l.mapM f = some bs ∧ l' = b :: bs := by
  rw [List.mapM_cons]
  constructor
  · intro h
    obtain ⟨b, hb, hrest⟩ := Option.bind_eq_some_iff.1 h
    obtain ⟨bs, hbs, hl'⟩ := Option.bind_eq_some_iff.1 hrest
    cases hl'
    exact ⟨b, bs, hb, hbs, rfl⟩
  · rintro ⟨b, bs, hb, hbs, rfl⟩
    rw [hb, hbs]
    rfl

theorem eq_some : l.mapM f = some l' ↔ List.Forall₂ (fun a b => f a = some b) l l' := by
  induction l generalizing l' with
  | nil =>
    rw [List.forall₂_nil_left_iff]
    constructor
    · intro h
      cases h
      rfl
    · rintro rfl
      rfl
  | cons a l ih =>
    rw [cons_eq_some, List.forall₂_cons_left_iff]
    simp only [ih, exists_and_left]

end

section
variable {f : α → Except ε β}

theorem bind_eq_ok {x : Except ε α} {b : β} (h : x >>= f = .ok b) :
    ∃ a, x = .ok a ∧ f a = .ok b := by
  cases x with
  | error e => cases h
  | ok a => exact ⟨a, rfl, h⟩

theorem cons_eq_ok : (a :: l).mapM f = .ok l' ↔
    ∃ b bs, f a = .ok b ∧ l.mapM f = .ok bs ∧ l' = b :: bs := by
  rw [List.mapM_cons]
  constructor
  · intro h
    obtain ⟨b, hb, hrest⟩ := bind_eq_ok h
    obtain ⟨bs, hbs, hl'⟩ := bind_eq_ok hrest
    cases hl'
    exact ⟨b, bs, hb, hbs, rfl⟩
  · rintro ⟨b, bs, hb, hbs, rfl⟩
    rw [hb, hbs]
    rfl

theorem eq_ok : l.mapM f = .ok l' ↔ List.Forall₂ (fun a b => f a = .ok b) l l' := by
  induction l generalizing l' with
  | nil =>
    rw [List.forall₂_nil_left_iff]
    constructor
    · intro h
      cases h
      rfl
    · rintro rfl
      rfl
  | cons a l ih =>
    rw [cons_eq_ok, List.forall₂_cons_left_iff]
    simp only [ih, exists_and_left]

end

end MapM
