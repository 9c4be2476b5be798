/-
  A consumer that is fed chunk by chunk.

  `take` asks for a result that is complete already.  When there is none, `offer` says where the next
  chunk goes, or refuses, and `give` hands it over; it may give a result at once.  `Feeds` is what a
  caller gets who takes all the results before each chunk.

  `Fed` are the calls of any caller who keeps to this order, one rule for each call, and `Fed.feeds_iff`
  says what such a caller has got: what `Feeds` gives for the same chunks, up to the results that are
  still to be taken.
-/
import Mathlib.Data.List.Basic

/-- A consumer with states `σ`, chunks `γ`, places `β` for a chunk and results `ρ`. -/
structure Feeder (σ γ β ρ : Type) where
  take : σ → Option ρ × σ
  offer : σ → Except ρ β × σ
  give : σ → β → γ → Option ρ × σ

namespace Feeder

variable {σ γ β ρ : Type} (f : Feeder σ γ β ρ)

/-- The results up to the next place for a chunk. -/
inductive Ready : σ → List ρ → β → σ → Prop
  | ready {s s₁ s₂ b} : f.take s = (none, s₁) → f.offer s₁ = (.ok b, s₂) → Ready s [] b s₂
  | took {s s₁ s₂ r rs b} : f.take s = (some r, s₁) → Ready s₁ rs b s₂ → Ready s (r :: rs) b s₂
  | refused {s s₁ s₂ s₃ r rs b} : f.take s = (none, s₁) → f.offer s₁ = (.error r, s₂) →
      Ready s₂ rs b s₃ → Ready s (r :: rs) b s₃

/-- The results for the chunks. -/
inductive Feeds : σ → List γ → List ρ → β → σ → Prop
  | nil {s s' rs b} : Ready f s rs b s' → Feeds s [] rs b s'
  | cons {s s₁ s₂ s₃ c cs r rs rs' b b'} : Ready f s rs b s₁ → f.give s₁ b c = (r, s₂) →
      Feeds s₂ cs rs' b' s₃ → Feeds s (c :: cs) (rs ++ (r.toList ++ rs')) b' s₃

/-- Some calls: the chunks that have been given, and the results. -/
inductive Fed (s₀ : σ) : List γ → List ρ → σ → Prop
  | start : Fed s₀ [] [] s₀
  | took {cs rs s s' r} : Fed s₀ cs rs s → f.take s = (some r, s') → Fed s₀ cs (rs ++ [r]) s'
  | drained {cs rs s s'} : Fed s₀ cs rs s → f.take s = (none, s') → Fed s₀ cs rs s'
  | offered {cs rs s s' b} : Fed s₀ cs rs s → f.take s = (none, s) → f.offer s = (.ok b, s') →
      Fed s₀ cs rs s'
  | refused {cs rs s s' r} : Fed s₀ cs rs s → f.take s = (none, s) → f.offer s = (.error r, s') →
      Fed s₀ cs (rs ++ [r]) s'
  | gave {cs rs s s' b c r} : Fed s₀ cs rs s → f.take s = (none, s) → f.offer s = (.ok b, s) →
      f.give s b c = (r, s') → Fed s₀ (cs ++ [c]) (rs ++ r.toList) s'

/-- Asking once more changes nothing. -/
structure Lawful (Ok : σ → Prop) : Prop where
  ok_take : ∀ {s s' r}, Ok s → f.take s = (r, s') → Ok s'
  ok_offer : ∀ {s s' r}, Ok s → f.offer s = (r, s') → Ok s'
  ok_give : ∀ {s s' b c r}, Ok s → f.give s b c = (r, s') → Ok s'
  take_none : ∀ {s s'}, Ok s → f.take s = (none, s') → f.take s' = (none, s')
  give_none : ∀ {s s' b c}, Ok s → f.give s b c = (none, s') → f.take s' = (none, s')
  offer_ok : ∀ {s s' b}, Ok s → f.take s = (none, s) → f.offer s = (.ok b, s') →
    f.take s' = (none, s') ∧ f.offer s' = (.ok b, s')

variable {f} {Ok : σ → Prop} {s₀ s s' s₁ : σ} {b b' : β} {c : γ} {cs : List γ} {r : ρ}
  {rs ws : List ρ}

/-! ## The next place -/

theorem ready_iff_of_took (h : f.take s = (some r, s₁)) :
    Ready f s ws b s' ↔ ∃ ws', ws = r :: ws' ∧ Ready f s₁ ws' b s' := by
  constructor
  · intro hready
    cases hready with
    | ready htake _ => exact nomatch h.symm.trans htake
    | took htake hrest =>
      cases h.symm.trans htake
      exact ⟨_, rfl, hrest⟩
    | refused htake _ _ => exact nomatch h.symm.trans htake
  · rintro ⟨ws', rfl, hrest⟩
    exact .took h hrest

theorem ready_iff_of_drained (h : f.take s = (none, s₁)) (h₁ : f.take s₁ = (none, s₁)) :
    Ready f s ws b s' ↔ Ready f s₁ ws b s' := by
  constructor
  all_goals
    intro hready
    cases hready with
    | ready htake hoffer =>
      first
        | (cases h.symm.trans htake; exact .ready h₁ hoffer)
        | (cases h₁.symm.trans htake; exact .ready h hoffer)
    | took htake _ =>
      first
        | exact nomatch h.symm.trans htake
        | exact nomatch h₁.symm.trans htake
    | refused htake hoffer hrest =>
      first
        | (cases h.symm.trans htake; exact .refused h₁ hoffer hrest)
        | (cases h₁.symm.trans htake; exact .refused h hoffer hrest)

theorem ready_iff_of_ok (h : f.take s = (none, s)) (hoffer : f.offer s = (.ok b, s₁)) :
    Ready f s ws b' s' ↔ ws = [] ∧ b' = b ∧ s' = s₁ := by
  constructor
  · intro hready
    cases hready with
    | ready htake hoffer' =>
      cases h.symm.trans htake
      cases hoffer.symm.trans hoffer'
      exact ⟨rfl, rfl, rfl⟩
    | took htake _ => exact nomatch h.symm.trans htake
    | refused htake hoffer' _ =>
      cases h.symm.trans htake
      exact nomatch hoffer.symm.trans hoffer'
  · rintro ⟨rfl, rfl, rfl⟩
    exact .ready h hoffer

theorem ready_iff_of_refused (h : f.take s = (none, s)) (hoffer : f.offer s = (.error r, s₁)) :
    Ready f s ws b s' ↔ ∃ ws', ws = r :: ws' ∧ Ready f s₁ ws' b s' := by
  constructor
  · intro hready
    cases hready with
    | ready htake hoffer' =>
      cases h.symm.trans htake
      exact nomatch hoffer.symm.trans hoffer'
    | took htake _ => exact nomatch h.symm.trans htake
    | refused htake hoffer' hrest =>
      cases h.symm.trans htake
      cases hoffer.symm.trans hoffer'
      exact ⟨_, rfl, hrest⟩
  · rintro ⟨ws', rfl, hrest⟩
    exact .refused h hoffer hrest

/-! ## The chunks -/

theorem feeds_nil_iff : Feeds f s [] rs b s' ↔ Ready f s rs b s' :=
  ⟨fun h => by cases h; assumption, .nil⟩

theorem feeds_concat_iff : Feeds f s (cs ++ [c]) rs b s' ↔
    ∃ rs₁ b₁ s₁ r s₂ rs₂, Feeds f s cs rs₁ b₁ s₁ ∧ f.give s₁ b₁ c = (r, s₂) ∧
      Ready f s₂ rs₂ b s' ∧ rs = rs₁ ++ (r.toList ++ rs₂) := by
  induction cs generalizing s rs with
  | nil =>
    constructor
    · intro h
      cases h with
      | cons hready hgive hrest =>
        exact ⟨_, _, _, _, _, _, .nil hready, hgive, feeds_nil_iff.1 hrest, rfl⟩
    · rintro ⟨rs₁, b₁, s₁, r, s₂, rs₂, hfeeds, hgive, hready, rfl⟩
      exact .cons (feeds_nil_iff.1 hfeeds) hgive (.nil hready)
  | cons d cs ih =>
    constructor
    · intro h
      cases h with
      | cons hready hgive hrest =>
        obtain ⟨rs₁, b₁, s₁, r, s₂, rs₂, hfeeds, hgive', hready', rfl⟩ := ih.1 hrest
        refine ⟨_, b₁, s₁, r, s₂, rs₂, .cons hready hgive hfeeds, hgive', hready', ?_⟩
        simp only [List.append_assoc]
    · rintro ⟨rs₁, b₁, s₁, r, s₂, rs₂, hfeeds, hgive, hready, rfl⟩
      cases hfeeds with
      | cons hready' hgive' hrest =>
        have htail := ih.2 ⟨_, b₁, s₁, r, s₂, rs₂, hrest, hgive, hready, rfl⟩
        have hall := Feeds.cons hready' hgive' htail
        simp only [List.append_assoc] at hall ⊢
        exact hall

theorem Fed.ok (hf : f.Lawful Ok) (h₀ : Ok s₀) (h : Fed f s₀ cs rs s) : Ok s := by
  induction h with
  | start => exact h₀
  | took _ htake ih | drained _ htake ih => exact hf.ok_take ih htake
  | offered _ _ hoffer ih | refused _ _ hoffer ih => exact hf.ok_offer ih hoffer
  | gave _ _ _ hgive ih => exact hf.ok_give ih hgive

/-- A first report, after others. -/
theorem exists_cons_append {p : List ρ → Prop} {r : ρ} {rs rs' : List ρ} :
    (∃ rs₁, (∃ ws, rs₁ = r :: ws ∧ p ws) ∧ rs' = rs ++ rs₁) ↔
      ∃ ws, p ws ∧ rs' = rs ++ [r] ++ ws := by
  constructor
  · rintro ⟨_, ⟨ws, rfl, hws⟩, rfl⟩
    exact ⟨ws, hws, List.append_cons _ _ _⟩
  · rintro ⟨ws, hws, rfl⟩
    exact ⟨_, ⟨ws, rfl, hws⟩, (List.append_cons _ _ _).symm⟩

/-- **What a caller has got, and will get by taking, is what the chunks give.** -/
theorem Fed.feeds_iff (hf : f.Lawful Ok) (h₀ : Ok s₀) (h : Fed f s₀ cs rs s) {rs' : List ρ} :
    Feeds f s₀ cs rs' b s' ↔ ∃ ws, Ready f s ws b s' ∧ rs' = rs ++ ws := by
  induction h generalizing rs' b s' with
  | start =>
    rw [feeds_nil_iff]
    exact ⟨fun hready => ⟨_, hready, rfl⟩, fun ⟨_, hready, hrs⟩ => hrs ▸ hready⟩
  | took _ htake ih =>
    rw [ih]
    simp only [ready_iff_of_took htake, exists_cons_append]
  | drained hfed htake ih =>
    rw [ih]
    simp only [ready_iff_of_drained htake (hf.take_none (hfed.ok hf h₀) htake)]
  | offered hfed htake hoffer ih =>
    rw [ih]
    obtain ⟨htake', hoffer'⟩ := hf.offer_ok (hfed.ok hf h₀) htake hoffer
    simp only [ready_iff_of_ok htake hoffer, ready_iff_of_ok htake' hoffer']
  | refused _ htake hoffer ih =>
    rw [ih]
    simp only [ready_iff_of_refused htake hoffer, exists_cons_append]
  | gave _ htake hoffer hgive ih =>
    rw [feeds_concat_iff]
    constructor
    · rintro ⟨rs₁, b₁, s₁, r, s₂, rs₂, hfeeds, hgive', hready, rfl⟩
      obtain ⟨ws, hready', rfl⟩ := ih.1 hfeeds
      obtain ⟨rfl, rfl, rfl⟩ := (ready_iff_of_ok htake hoffer).1 hready'
      cases hgive.symm.trans hgive'
      exact ⟨rs₂, hready, by simp only [List.append_nil, List.append_assoc]⟩
    · rintro ⟨ws, hready, rfl⟩
      refine ⟨_, _, _, _, _, ws, ih.2 ⟨[], .ready htake hoffer, rfl⟩, hgive, hready, ?_⟩
      simp only [List.append_nil, List.append_assoc]

end Feeder
