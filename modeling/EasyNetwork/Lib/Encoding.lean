/-
  Frames that are written one after the other.

  `IsFrame l o`: the framer finds the frame `o` in `l`, and not before the last of the bytes is
  there.  Of frames that are written one after the other it finds the same ones, in order
  (`outs_flatten`), and nothing is left (`drain_flatten`).

  `Leaves t os b`: a reader that has got `t` has taken the frames `os` and still holds `b`.
-/
import EasyNetwork.Lib.Segments

namespace Framing

variable {α ρ : Type} {F : Framer α ρ}

/-- `l` is one frame, and is complete with its last element only. -/
structure IsFrame (F : Framer α ρ) (l : List α) (o : ρ) : Prop where
  dec : F.dec l = some (o, [])
  incomplete : ∀ {b t}, l = b ++ t → t ≠ [] → F.dec b = none

namespace IsFrame
variable {l b t : List α} {o : ρ}

theorem ne_nil (h : IsFrame F l o) : l ≠ [] := by
  rintro rfl
  exact absurd (F.dec_nil.symm.trans h.dec) nofun

theorem dec_append (h : IsFrame F l o) (t : List α) : F.dec (l ++ t) = some (o, F.norm t) :=
  F.dec_append t h.dec

theorem outs_append (h : IsFrame F l o) (t : List α) : F.outs (l ++ t) = o :: F.outs t := by
  rw [Framer.outs_some (h.dec_append t), Framer.outs_norm]

theorem rest_append (h : IsFrame F l o) (t : List α) : F.rest (l ++ t) = F.rest t := by
  rw [Framer.rest_some (h.dec_append t), Framer.rest_norm]

/-- A part of a frame gives nothing. -/
theorem outs_part (h : IsFrame F l o) (hb : b <+: l) (hne : b ≠ l) : F.outs b = [] := by
  obtain ⟨t, rfl⟩ := hb
  refine Framer.outs_none (h.incomplete rfl fun ht => hne ?_)
  rw [ht, List.append_nil]

end IsFrame

/-- **Frames one after the other are found one after the other.** -/
theorem outs_flatten {ls : List (List α)} {os : List ρ} (h : List.Forall₂ (IsFrame F) ls os)
    (t : List α) : F.outs (ls.flatten ++ t) = os ++ F.outs t := by
  induction h with
  | nil => rfl
  | cons hl _ ih =>
    rw [List.flatten_cons, List.append_assoc, hl.outs_append, ih]
    rfl

/-- Nothing is left of them. -/
theorem drain_flatten {ls : List (List α)} {os : List ρ} (h : List.Forall₂ (IsFrame F) ls os) :
    F.outs ls.flatten = os ∧ F.rest ls.flatten = [] := by
  constructor
  · have houts := outs_flatten h []
    rwa [List.append_nil, Framer.outs_nil, List.append_nil] at houts
  · induction h with
    | nil => exact F.rest_nil
    | cons hl _ ih => rw [List.flatten_cons, hl.rest_append, ih]

/-! ## Blocks -/

/-- Without a normal form, the parts may be put together at once. -/
theorem id_append_id {α : Type} (b t : List α) : id (b ++ t) = id (id b ++ t) := rfl

/-- The framer that cuts after `size` elements. -/
def blocks {α : Type} (size : ℕ) (hpos : 0 < size) : Framer α (List α) where
  dec b := if size ≤ b.length then some (b.take size, b.drop size) else none
  norm := id
  dec_lt := by
    intro b o r h
    split at h <;> cases h
    rw [List.length_drop]
    omega
  norm_suffix := List.suffix_refl
  dec_norm _ := rfl
  norm_append := id_append_id
  dec_append := by
    intro b o r t h
    split at h <;> cases h
    next hle =>
    rw [if_pos (by rw [List.length_append]; omega), List.take_append_of_le_length hle,
      List.drop_append_of_le_length hle, id]

section
variable {size : ℕ} {hpos : 0 < size} {b o r : List α}

theorem blocks_dec_none : (blocks size hpos).dec b = none ↔ b.length < size := by
  unfold blocks
  dsimp only
  split_ifs <;> simp only [false_iff, true_iff] <;> omega

theorem blocks_dec_some : (blocks size hpos).dec b = some (o, r) ↔
    size ≤ b.length ∧ o = b.take size ∧ r = b.drop size := by
  unfold blocks
  dsimp only
  split_ifs with h
  · simp only [Option.some.injEq, Prod.mk.injEq, h, true_and, eq_comm]
  · simp only [false_iff, not_and]
    exact fun hle => absurd hle h

/-- Any `size` elements are a frame. -/
theorem isFrame_block (h : b.length = size) : IsFrame (blocks size hpos) b b where
  dec := blocks_dec_some.2 ⟨h.ge, by rw [← h, List.take_length], by rw [← h, List.drop_length]⟩
  incomplete := by
    rintro b t rfl ht
    have hlt := List.length_pos_iff.2 ht
    rw [List.length_append] at h
    exact blocks_dec_none.2 (by omega)

end

/-! ## Segments -/

section
open Search
variable [DecidableEq α] {sep : List α} (hsep : sep ≠ [])

/-- What ends with its first separator is a frame. -/
theorem isFrame_segment {d : List α} (h : find sep (d ++ sep) = some d.length) :
    IsFrame (segmenter sep hsep) (d ++ sep) d where
  dec := (segmenter_dec_some hsep).2
    ⟨d.length, h, (List.take_left).symm, by rw [← List.length_append, List.drop_length]⟩
  incomplete := by
    intro b t hbt ht
    refine (segmenter_dec_none hsep).2 ?_
    by_contra hne
    obtain ⟨i, hi⟩ := Option.ne_none_iff_exists'.1 hne
    have hle := find_le hi hsep
    have hlen := congrArg List.length hbt
    have hpos := List.length_pos_iff.2 ht
    rw [hbt, find_append_of_some hi hsep] at h
    cases h
    rw [List.length_append, List.length_append] at hlen
    omega

/-- Short segments fit. -/
theorem fits_flatten {n : ℕ} (hn : 2 ≤ n) {ls os : List (List α)}
    (h : List.Forall₂ (IsFrame (segmenter sep hsep)) ls os)
    (hle : ∀ o ∈ os, o.length + sep.length + 1 ≤ n) : Fits hsep n ls.flatten := by
  obtain ⟨houts, hrest⟩ := drain_flatten h
  refine ⟨fun o ho => hle o (houts ▸ ho), ?_⟩
  rw [hrest]
  exact hn

end

/-! ## A reader that takes the frames one by one -/

/-- Whatever follows `t`, its frames are `os` and then those of `b` with what follows. -/
structure Leaves (F : Framer α ρ) (ok : List α → Prop) (t : List α) (os : List ρ) (b : List α) :
    Prop where
  outs : ∀ c, F.outs (t ++ c) = os ++ F.outs (b ++ c)
  rest : ∀ c, F.rest (t ++ c) = F.rest (b ++ c)
  ok : ∀ c, ok (t ++ c) → ok (b ++ c)

namespace Leaves
variable {ok : List α → Prop} {t b r : List α} {os : List ρ} {o : ρ}

theorem refl (F : Framer α ρ) (ok : List α → Prop) (t : List α) : Leaves F ok t [] t where
  outs _ := rfl
  rest _ := rfl
  ok _ h := h

theorem append (h : Leaves F ok t os b) (c : List α) : Leaves F ok (t ++ c) os (b ++ c) where
  outs d := by rw [List.append_assoc, List.append_assoc, h.outs]
  rest d := by rw [List.append_assoc, List.append_assoc, h.rest]
  ok d hd := by
    rw [List.append_assoc] at hd ⊢
    exact h.ok _ hd

theorem norm (hok : F.Closed ok) (h : Leaves F ok t os b) : Leaves F ok t os (F.norm b) where
  outs c := by rw [h.outs, ← F.outs_norm (F.norm b ++ c), F.norm_append, F.outs_norm]
  rest c := by rw [h.rest, ← F.rest_norm (F.norm b ++ c), F.norm_append, F.rest_norm]
  ok c hc := by
    rw [← hok.norm, F.norm_append, hok.norm]
    exact h.ok c hc

/-- The next frame is taken. -/
theorem dec (hok : F.Closed ok) (h : Leaves F ok t os b) (hdec : F.dec b = some (o, r)) :
    Leaves F ok t (os ++ [o]) r where
  outs c := by
    rw [h.outs, Framer.outs_some (F.dec_append c hdec), Framer.outs_norm, List.append_assoc]
    rfl
  rest c := by rw [h.rest, Framer.rest_some (F.dec_append c hdec), Framer.rest_norm]
  ok c hc := hok.norm.1 (hok.dec (h.ok c hc) (F.dec_append c hdec))

theorem outs_eq (h : Leaves F ok t os b) : F.outs t = os ++ F.outs b := by
  have := h.outs []
  rwa [List.append_nil, List.append_nil] at this

theorem rest_eq (h : Leaves F ok t os b) : F.rest t = F.rest b := by
  have := h.rest []
  rwa [List.append_nil, List.append_nil] at this

theorem ok_left (h : Leaves F ok t os b) (ht : ok t) : ok b := by
  have := h.ok []
  rw [List.append_nil, List.append_nil] at this
  exact this ht

end Leaves

end Framing
