/-
  Framing a byte stream.

  A `Framer` reads one frame from the beginning of the bytes received so far.
  `outs b` is the sequence of the frames of `b` and `rest b` the bytes that are left.
  **Cutting does not matter** (`outs_append`, `rest_append`): reading `b ++ t` gives the frames of
  `b`, followed by those of what `b` left and `t`.

  Some framers ignore bytes between two frames.  `norm` removes these from the beginning of the
  received bytes; a framer may remove them before or after it has given a frame.

  `IsCutting` are the reads into which a list can be cut; one of them completes what is found in the
  list (`exists_completing`).
-/
import Mathlib.Data.List.Induction

namespace Framing

/-- A framer over the alphabet `α` with frames in `ρ`. -/
structure Framer (α ρ : Type) where
  /-- The first frame of the received bytes and what is left after it. -/
  dec : List α → Option (ρ × List α)
  /-- The received bytes without those that are ignored before a frame. -/
  norm : List α → List α
  dec_lt : ∀ {b o r}, dec b = some (o, r) → r.length < b.length
  norm_suffix : ∀ b, norm b <:+ b
  dec_norm : ∀ b, dec (norm b) = dec b
  norm_append : ∀ b t, norm (norm b ++ t) = norm (b ++ t)
  /-- A frame that has been received stays the first one when more bytes are received. -/
  dec_append : ∀ {b o r} t, dec b = some (o, r) → dec (b ++ t) = some (o, norm (r ++ t))

namespace Framer
variable {α ρ : Type} (F : Framer α ρ)

/-- The frames of `b`, and the bytes after the last one. -/
def drain (b : List α) : List ρ × List α :=
  match _h : F.dec b with
  | none => ([], F.norm b)
  | some (o, r) => let d := drain r; (o :: d.1, d.2)
termination_by b.length
decreasing_by exact F.dec_lt ‹_›

/-- The frames of the received bytes. -/
def outs (b : List α) : List ρ := (F.drain b).1

/-- The bytes that no frame has used. -/
def rest (b : List α) : List α := (F.drain b).2

variable {F} {b t r : List α} {o : ρ}

theorem drain_none (h : F.dec b = none) : F.drain b = ([], F.norm b) := by
  rw [drain]; split
  · rfl
  · next h' => rw [h] at h'; cases h'

theorem drain_some (h : F.dec b = some (o, r)) : F.drain b = (o :: F.outs r, F.rest r) := by
  rw [drain]; split
  · next h' => rw [h] at h'; cases h'
  · next h' => rw [h] at h'; cases h'; rfl

theorem outs_none (h : F.dec b = none) : F.outs b = [] := by rw [outs, drain_none h]

theorem rest_none (h : F.dec b = none) : F.rest b = F.norm b := by rw [rest, drain_none h]

theorem outs_some (h : F.dec b = some (o, r)) : F.outs b = o :: F.outs r := by
  rw [outs, drain_some h]

theorem rest_some (h : F.dec b = some (o, r)) : F.rest b = F.rest r := by
  rw [rest, drain_some h]

@[simp] theorem dec_nil (F : Framer α ρ) : F.dec [] = none := by
  rcases h : F.dec [] with _ | ⟨o, r⟩
  · rfl
  · exact absurd (F.dec_lt h) (Nat.not_lt_zero _)

@[simp] theorem norm_nil (F : Framer α ρ) : F.norm [] = [] :=
  List.eq_nil_of_suffix_nil (F.norm_suffix [])

@[simp] theorem outs_nil (F : Framer α ρ) : F.outs [] = [] := outs_none F.dec_nil

@[simp] theorem rest_nil (F : Framer α ρ) : F.rest [] = [] := by
  rw [rest_none F.dec_nil, F.norm_nil]

theorem norm_norm (b : List α) : F.norm (F.norm b) = F.norm b := by
  have := F.norm_append b []; simpa using this

theorem drain_norm (b : List α) : F.drain (F.norm b) = F.drain b := by
  rcases h : F.dec b with _ | ⟨o, r⟩
  · rw [drain_none h, drain_none ((F.dec_norm b).trans h), norm_norm]
  · rw [drain_some h, drain_some ((F.dec_norm b).trans h)]

@[simp] theorem outs_norm (b : List α) : F.outs (F.norm b) = F.outs b := by
  rw [outs, drain_norm, outs]

@[simp] theorem rest_norm (b : List α) : F.rest (F.norm b) = F.rest b := by
  rw [rest, drain_norm, rest]

/-- Nothing is left to be framed. -/
theorem dec_rest (b : List α) : F.dec (F.rest b) = none := by
  induction hn : b.length using Nat.strongRecOn generalizing b with
  | ind n ih =>
    rcases h : F.dec b with _ | ⟨o, r⟩
    · rw [rest_none h, F.dec_norm, h]
    · rw [rest_some h]; exact ih _ (hn ▸ F.dec_lt h) r rfl

/-- **Cutting does not matter.** -/
theorem drain_append (F : Framer α ρ) (b t : List α) :
    F.drain (b ++ t) = (F.outs b ++ F.outs (F.rest b ++ t), F.rest (F.rest b ++ t)) := by
  induction hn : b.length using Nat.strongRecOn generalizing b with
  | ind n ih =>
    rcases h : F.dec b with _ | ⟨o, r⟩
    · rw [outs_none h, rest_none h, List.nil_append, ← outs_norm (F.norm b ++ t), F.norm_append,
        ← rest_norm (F.norm b ++ t), F.norm_append, outs_norm, rest_norm]; rfl
    · have hr := ih _ (hn ▸ F.dec_lt h) r rfl
      have ho : F.outs (r ++ t) = F.outs r ++ F.outs (F.rest r ++ t) := by rw [outs, hr]
      have hs : F.rest (r ++ t) = F.rest (F.rest r ++ t) := by rw [rest, hr]
      rw [drain_some (F.dec_append t h), outs_norm, rest_norm, outs_some h, rest_some h, ho, hs,
        List.cons_append]

theorem outs_append (b t : List α) : F.outs (b ++ t) = F.outs b ++ F.outs (F.rest b ++ t) := by
  rw [outs, drain_append]

theorem rest_append (b t : List α) : F.rest (b ++ t) = F.rest (F.rest b ++ t) := by
  rw [rest, drain_append]

/-- A property of received bytes that the beginnings and the remainders of a stream inherit. -/
structure Closed (F : Framer α ρ) (ok : List α → Prop) : Prop where
  of_append : ∀ {b t}, ok (b ++ t) → ok b
  dec : ∀ {b o r}, ok b → F.dec b = some (o, r) → ok r
  norm : ∀ {b}, ok (F.norm b) ↔ ok b

theorem Closed.rest {ok : List α → Prop} (h : F.Closed ok) (b t : List α) (hb : ok (b ++ t)) :
    ok (F.rest b ++ t) := by
  induction hn : b.length using Nat.strongRecOn generalizing b with
  | ind n ih =>
    rcases hd : F.dec b with _ | ⟨o, r⟩
    · rw [rest_none hd, ← h.norm, F.norm_append, h.norm]; exact hb
    · rw [rest_some hd]
      exact ih _ (hn ▸ F.dec_lt hd) r (h.norm.1 (h.dec hb (F.dec_append t hd))) rfl

/-- A condition on each of the frames is inherited too. -/
theorem Closed.and_outs {ok : List α → Prop} (h : F.Closed ok) (p : ρ → Prop) :
    F.Closed fun b => ok b ∧ ∀ o ∈ F.outs b, p o where
  of_append hb := by
    refine ⟨h.of_append hb.1, fun o ho => hb.2 o ?_⟩
    rw [outs_append]
    exact List.mem_append_left _ ho
  dec hb hd := by
    refine ⟨h.dec hb.1 hd, fun o ho => hb.2 o ?_⟩
    rw [outs_some hd]
    exact List.mem_cons_of_mem _ ho
  norm := by
    intro b
    rw [outs_norm, h.norm]

end Framer

/-! ## Cuttings -/

section
variable {α β : Type} {l : List α}

/-- The reads are the pieces of `l`, none of which is empty. -/
structure IsCutting (reads : List (List α)) (l : List α) : Prop where
  flatten : reads.flatten = l
  ne : ∀ c ∈ reads, c ≠ []

theorem isCutting_singleton (hl : l ≠ []) : IsCutting [l] l where
  flatten := by simp
  ne c hc := by
    obtain rfl := List.mem_singleton.1 hc
    exact hl

/-- The last read of a cutting. -/
theorem IsCutting.concat {reads : List (List α)} (h : IsCutting reads l) (hl : l ≠ []) :
    ∃ cs c, reads = cs ++ [c] ∧ c ≠ [] ∧ cs.flatten ++ c = l := by
  rcases List.eq_nil_or_concat reads with rfl | ⟨cs, c, rfl⟩
  · exact absurd h.flatten.symm hl
  · rw [List.concat_eq_append] at h ⊢
    refine ⟨cs, c, rfl, h.ne c (by simp), ?_⟩
    rw [← List.flatten_concat]
    exact h.flatten

/-- The first chunk after which a property holds of what has been received. -/
theorem exists_reaching {p : List α → Prop} (hnil : ¬ p []) {chunks : List (List α)}
    (h : p chunks.flatten) : ∃ cs c rest, chunks = cs ++ c :: rest ∧ ¬ p cs.flatten ∧
      p (cs.flatten ++ c) := by
  induction chunks using List.reverseRecOn with
  | nil => exact absurd h hnil
  | append_singleton cs c ih =>
    by_cases hcs : p cs.flatten
    · obtain ⟨cs', c', rest, rfl, h1, h2⟩ := ih hcs
      exact ⟨cs', c', rest ++ [c], by simp, h1, h2⟩
    · rw [List.flatten_concat] at h
      exact ⟨cs, c, [], rfl, hcs, h⟩

/-- What is found in a prefix stays found: one of the chunks completes it. -/
theorem exists_completing {f : List α → Option β} {x : β} (hnil : f [] = none)
    (happend : ∀ l t y, f l = some y → f (l ++ t) = some y) {chunks : List (List α)}
    (h : f chunks.flatten = some x) : ∃ cs c rest, chunks = cs ++ c :: rest ∧
      f cs.flatten = none ∧ f (cs.flatten ++ c) = some x := by
  obtain ⟨cs, c, rest, rfl, hcs, hc⟩ := exists_reaching (p := fun l => f l ≠ none)
    (fun hne => hne hnil) (by rw [h]; exact Option.some_ne_none x)
  obtain ⟨y, hy⟩ := Option.ne_none_iff_exists'.1 hc
  have hxy := happend _ rest.flatten y hy
  rw [List.append_assoc, ← List.flatten_cons, ← List.flatten_append, h] at hxy
  cases hxy
  exact ⟨cs, c, rest, rfl, not_not.1 hcs, hy⟩

end

end Framing
