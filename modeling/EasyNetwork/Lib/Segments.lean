/-
  Segmenting a list at a separator.

  `segmenter sep` is the framer whose frames end at the first occurrence of `sep`
  (`find_segment`).  Its frames with their separators and the rest are the list
  (`flatten_segments`).
  `Fits n`: a reader with room for `n` elements never has to give up (`fits_closed`).
-/
import EasyNetwork.Lib.Search
import EasyNetwork.Lib.Framing

namespace Framing

open Search

variable {α : Type} [DecidableEq α] {sep : List α}

/-- The framer that cuts at the first occurrence of the separator. -/
def segmenter (sep : List α) (hsep : sep ≠ []) : Framer α (List α) where
  dec b := (find sep b).map fun i => (b.take i, b.drop (i + sep.length))
  norm := id
  dec_lt := by
    intro b o r h
    obtain ⟨i, hi, h⟩ := Option.map_eq_some_iff.1 h
    cases h
    have := find_le hi hsep
    have := List.length_pos_iff.2 hsep
    rw [List.length_drop]; omega
  norm_suffix _ := List.suffix_rfl
  dec_norm _ := rfl
  norm_append _ _ := rfl
  dec_append := by
    intro b o r t h
    obtain ⟨i, hi, h⟩ := Option.map_eq_some_iff.1 h
    cases h
    have hle := find_le hi hsep
    rw [find_append_of_some hi hsep, Option.map_some, List.take_append_of_le_length (by omega),
      List.drop_append_of_le_length hle, id]

section
variable (hsep : sep ≠ []) {b t o r : List α}

@[simp] theorem segmenter_norm (b : List α) : (segmenter sep hsep).norm b = b := rfl

theorem segmenter_dec_none : (segmenter sep hsep).dec b = none ↔ find sep b = none :=
  Option.map_eq_none_iff

theorem segmenter_dec_some : (segmenter sep hsep).dec b = some (o, r) ↔
    ∃ i, find sep b = some i ∧ o = b.take i ∧ r = b.drop (i + sep.length) := by
  simp only [segmenter, Option.map_eq_some_iff, Prod.mk.injEq]
  constructor
  · rintro ⟨i, hi, rfl, rfl⟩; exact ⟨i, hi, rfl, rfl⟩
  · rintro ⟨i, hi, rfl, rfl⟩; exact ⟨i, hi, rfl, rfl⟩

/-- A frame, its separator, and what comes after. -/
theorem eq_of_segmenter_dec (h : (segmenter sep hsep).dec b = some (o, r)) : b = o ++ sep ++ r := by
  obtain ⟨i, hi, rfl, rfl⟩ := (segmenter_dec_some hsep).1 h
  obtain ⟨t, ht⟩ := (find_eq_some_iff.1 hi).1
  rw [← List.drop_drop, ← ht, List.drop_left, List.append_assoc, ht, List.take_append_drop]

/-- **The segments with their separators and the rest are the list.** -/
theorem flatten_segments (b : List α) :
    (((segmenter sep hsep).outs b).map (· ++ sep)).flatten ++ (segmenter sep hsep).rest b = b := by
  induction hn : b.length using Nat.strongRecOn generalizing b with
  | ind n ih =>
    rcases h : (segmenter sep hsep).dec b with _ | ⟨o, r⟩
    · rw [Framer.outs_none h, Framer.rest_none h]; rfl
    · have hr := ih _ (hn ▸ Framer.dec_lt _ h) r rfl
      rw [Framer.outs_some h, Framer.rest_some h, List.map_cons, List.flatten_cons,
        List.append_assoc, hr, ← eq_of_segmenter_dec hsep h]

/-- The first separator after the beginning of a segment is the one that ends it. -/
theorem find_segment (ho : o ∈ (segmenter sep hsep).outs b) :
    find sep (o ++ sep) = some o.length := by
  induction hn : b.length using Nat.strongRecOn generalizing b with
  | ind n ih =>
    rcases h : (segmenter sep hsep).dec b with _ | ⟨o', r⟩
    · rw [Framer.outs_none h] at ho
      cases ho
    · rw [Framer.outs_some h] at ho
      rcases List.mem_cons.1 ho with rfl | ho
      · obtain ⟨i, hi, ho, -⟩ := (segmenter_dec_some hsep).1 h
        have hlen : o.length = i := by
          have := find_le hi hsep
          rw [ho, List.length_take]
          omega
        rw [eq_of_segmenter_dec hsep h, ← hlen] at hi
        refine find_eq_some_iff.2 ⟨occursAt_append_self sep o, fun j hj hoj => ?_, by simp⟩
        exact (find_eq_some_iff.1 hi).2.1 j hj (hoj.append r)
      · exact ih _ (hn ▸ Framer.dec_lt _ h) ho rfl

/-- Every segment leaves one of `n` places free, its separator included, and the rest two. -/
def Fits (hsep : sep ≠ []) (n : ℕ) (b : List α) : Prop :=
  (∀ o ∈ (segmenter sep hsep).outs b, o.length + sep.length + 1 ≤ n) ∧
    ((segmenter sep hsep).rest b).length + 2 ≤ n

theorem fits_closed (n : ℕ) : (segmenter sep hsep).Closed (Fits hsep n) where
  of_append := by
    rintro b t ⟨h1, h2⟩
    rw [Framer.outs_append] at h1
    rw [Framer.rest_append] at h2
    refine ⟨fun o ho => h1 o (List.mem_append_left _ ho), ?_⟩
    have hb : find sep ((segmenter sep hsep).rest b) = none :=
      (segmenter_dec_none hsep).1 (Framer.dec_rest b)
    rcases h : (segmenter sep hsep).dec ((segmenter sep hsep).rest b ++ t) with _ | ⟨o, r⟩
    · rw [Framer.rest_none h, segmenter_norm, List.length_append] at h2; omega
    · -- the rest of `b` begins a segment of `b ++ t`
      have ho := h1 o (List.mem_append_right _ (by rw [Framer.outs_some h]; exact .head _))
      obtain ⟨i, hi, rfl, -⟩ := (segmenter_dec_some hsep).1 h
      have := lt_of_find_append hb hsep hi
      have := find_le hi hsep
      rw [List.length_take] at ho; omega
  dec := by
    rintro b o r ⟨h1, h2⟩ h
    rw [Framer.outs_some h] at h1
    rw [Framer.rest_some h] at h2
    exact ⟨fun o ho => h1 o (.tail _ ho), h2⟩
  norm := Iff.rfl

/-- While no segment is complete, two places are free. -/
theorem Fits.none_le {n : ℕ} (h : Fits hsep n b) (hb : find sep b = none) : b.length + 2 ≤ n := by
  have := h.2
  rwa [Framer.rest_none ((segmenter_dec_none hsep).2 hb)] at this

/-- The first segment leaves one place free. -/
theorem Fits.some_le {n i : ℕ} (h : Fits hsep n b) (hb : find sep b = some i) :
    i + sep.length + 1 ≤ n := by
  have hd := (segmenter_dec_some hsep).2 ⟨i, hb, rfl, rfl⟩
  have ho := h.1 (b.take i) (by rw [Framer.outs_some hd]; exact .head _)
  have := find_le hb hsep
  rw [List.length_take] at ho; omega

end

end Framing
