/-
  Searching a pattern in a list: the first occurrence at or after an index,
  and the longest suffix of a list that is the beginning of the pattern.

  * `find p l` is the index of the first occurrence of `p` in `l`, and
    `findFrom p l k` the first one at or after `k`;
  * `overlap p l` is the longest suffix of `l` that is a proper prefix of `p`,
    i.e. what has to be kept of `l` so that no occurrence of `p` that is still
    being received is missed (`find_append_overlap`);
  * `Keeps p l e`: to look for `p` in `l` and whatever follows, the end `e` of `l` is enough.
-/
import Mathlib.Data.List.PeriodicityLemma

namespace Search

variable {α : Type} {p l t : List α} {i j k : ℕ}

/-! ## Occurrences -/

/-- The pattern `p` occurs in `l` at index `i`. -/
def OccursAt (p l : List α) (i : ℕ) : Prop := p <+: l.drop i

instance [DecidableEq α] : Decidable (OccursAt p l i) :=
  inferInstanceAs (Decidable (p <+: l.drop i))

theorem OccursAt.le (h : OccursAt p l i) (hp : p ≠ []) : i + p.length ≤ l.length := by
  have hl := h.length_le
  have := List.length_pos_iff.2 hp
  rw [List.length_drop] at hl; omega

theorem occursAt_append_left (h : i + p.length ≤ l.length) :
    OccursAt p (l ++ t) i ↔ OccursAt p l i := by
  unfold OccursAt
  rw [List.drop_append_of_le_length (by omega)]
  exact List.isPrefix_append_of_length (by rw [List.length_drop]; omega)

theorem OccursAt.append (h : OccursAt p l i) (t : List α) : OccursAt p (l ++ t) i := by
  rcases Nat.lt_or_ge l.length i with hi | hi
  · have hp : p = [] := by
      rw [OccursAt, List.drop_eq_nil_of_le (by omega)] at h; exact List.prefix_nil.1 h
    subst hp; exact List.nil_prefix
  · unfold OccursAt at h ⊢
    rw [List.drop_append_of_le_length hi]; exact h.trans (List.prefix_append _ _)

theorem occursAt_drop : OccursAt p (l.drop k) i ↔ OccursAt p l (k + i) := by
  unfold OccursAt; rw [List.drop_drop]

theorem occursAt_append_right : OccursAt p (l ++ t) (l.length + i) ↔ OccursAt p t i := by
  unfold OccursAt; rw [List.drop_length_add_append]

theorem occursAt_append_self (p l : List α) : OccursAt p (l ++ p) l.length := by
  unfold OccursAt
  rw [List.drop_left]

/-- A nonempty list that is its own tail followed by `x` consists of `x`. -/
theorem eq_of_eq_tail_concat {x : α} : ∀ {l : List α}, l ≠ [] → l = l.tail ++ [x] → ∀ y ∈ l, y = x
  | [a], _, h => by simpa using h
  | a :: b :: l, _, h => by
    simp only [List.tail_cons, List.cons_append, List.cons.injEq] at h
    have ih := eq_of_eq_tail_concat (List.cons_ne_nil b l) h.2
    simp only [List.mem_cons, forall_eq_or_imp] at ih ⊢
    exact ⟨h.1.trans ih.1, ih⟩

/-- A list of `x`s is its own tail followed by `x`. -/
theorem eq_tail_concat {x : α} : ∀ {l : List α}, l ≠ [] → (∀ y ∈ l, y = x) → l = l.tail ++ [x]
  | [a], _, h => by simpa using h
  | a :: b :: l, _, h => by
    simp only [List.mem_cons, forall_eq_or_imp] at h
    have ih := eq_tail_concat (List.cons_ne_nil b l)
      (by simpa only [List.mem_cons, forall_eq_or_imp] using h.2)
    rw [List.tail_cons, List.cons_append, List.cons.injEq]
    exact ⟨h.1.trans h.2.1.symm, ih⟩

theorem prefix_concat_of_getElem? {e : List α} {x : α} (h : e <+: p)
    (hx : p[e.length]? = some x) : e ++ [x] <+: p := by
  obtain ⟨t, rfl⟩ := h
  rw [List.getElem?_append_right le_rfl, Nat.sub_self] at hx
  rw [List.prefix_append_right_inj]
  cases t with
  | nil => simp at hx
  | cons a t => simp only [List.getElem?_cons_zero, Option.some.injEq] at hx; subst hx; simp

/-! ## The first occurrence -/

variable [DecidableEq α]

/-- The index of the first occurrence of `p` in a list. -/
def find (p : List α) : List α → Option ℕ
  | [] => if p = [] then some 0 else none
  | x :: xs => if p <+: x :: xs then some 0 else (find p xs).map (· + 1)

/-- The index of the first occurrence of `p` in `l` that does not start before `k`. -/
def findFrom (p l : List α) (k : ℕ) : Option ℕ := (find p (l.drop k)).map (k + ·)

theorem find_eq_some_iff :
    find p l = some i ↔ OccursAt p l i ∧ (∀ j < i, ¬ OccursAt p l j) ∧ i ≤ l.length := by
  induction l generalizing i with
  | nil =>
    unfold find; split_ifs with h
    · subst h
      simp only [Option.some.injEq, OccursAt, List.nil_prefix, not_true, true_and, imp_false,
        List.length_nil]
      exact ⟨fun h => ⟨fun j => by omega, by omega⟩, fun h => by omega⟩
    · simp [OccursAt, h]
  | cons x xs ih =>
    unfold find; split_ifs with h
    · constructor
      · rintro h'; cases h'; exact ⟨h, fun j hj => by omega, by omega⟩
      · rintro ⟨-, h2, -⟩
        rcases Nat.eq_zero_or_pos i with rfl | hi
        · rfl
        · exact absurd h (h2 0 hi)
    · rw [Option.map_eq_some_iff]
      constructor
      · rintro ⟨i', hi', rfl⟩
        obtain ⟨h1, h2, h3⟩ := ih.1 hi'
        refine ⟨h1, fun j hj => ?_, by simpa using h3⟩
        cases j with
        | zero => exact h
        | succ j => exact h2 j (by omega)
      · rintro ⟨h1, h2, h3⟩
        cases i with
        | zero => exact absurd h1 h
        | succ i =>
          exact ⟨i, ih.2 ⟨h1, fun j hj => h2 (j + 1) (by omega), by simpa using h3⟩, rfl⟩

theorem find_eq_none_iff : find p l = none ↔ ∀ i, i ≤ l.length → ¬ OccursAt p l i := by
  constructor
  · intro h i hi ho
    classical
    have hex : ∃ j, OccursAt p l j := ⟨i, ho⟩
    have hf : find p l = some (Nat.find hex) :=
      find_eq_some_iff.2 ⟨Nat.find_spec hex, fun j hj => Nat.find_min hex hj,
        (Nat.find_min' hex ho).trans hi⟩
    rw [h] at hf; cases hf
  · intro h
    rcases hf : find p l with _ | i
    · rfl
    · obtain ⟨h1, -, h3⟩ := find_eq_some_iff.1 hf
      exact absurd h1 (h i h3)

theorem not_occursAt_of_find_none (h : find p l = none) (hp : p ≠ []) (i : ℕ) :
    ¬ OccursAt p l i := by
  intro ho
  have := ho.le hp
  exact find_eq_none_iff.1 h i (by omega) ho

theorem find_le (h : find p l = some i) (hp : p ≠ []) : i + p.length ≤ l.length :=
  (find_eq_some_iff.1 h).1.le hp

theorem find_nil (hp : p ≠ []) : find p [] = none := by simp [find, hp]

/-- An occurrence found stays the first one when the list grows. -/
theorem find_append_of_some (h : find p l = some i) (hp : p ≠ []) (t : List α) :
    find p (l ++ t) = some i := by
  obtain ⟨h1, h2, h3⟩ := find_eq_some_iff.1 h
  refine find_eq_some_iff.2 ⟨h1.append t, fun j hj hc => h2 j hj ?_, by simp; omega⟩
  have := find_le h hp
  exact (occursAt_append_left (by omega)).1 hc

/-- Where the grown list has its first occurrence when the list itself has none. -/
theorem lt_of_find_append (h : find p l = none) (hp : p ≠ []) (h' : find p (l ++ t) = some i) :
    l.length < i + p.length := by
  by_contra hc
  exact not_occursAt_of_find_none h hp i
    ((occursAt_append_left (by omega)).1 (find_eq_some_iff.1 h').1)

theorem findFrom_eq_find (h : ∀ j < k, ¬ OccursAt p l j) (hk : k ≤ l.length) :
    findFrom p l k = find p l := by
  unfold findFrom
  rcases hf : find p (l.drop k) with _ | i
  · symm; rw [Option.map_none, find_eq_none_iff]
    intro i hi ho
    rcases Nat.lt_or_ge i k with hik | hik
    · exact h i hik ho
    · refine find_eq_none_iff.1 hf (i - k) (by rw [List.length_drop]; omega) ?_
      rw [occursAt_drop]; rwa [Nat.add_sub_cancel' hik]
  · obtain ⟨h1, h2, h3⟩ := find_eq_some_iff.1 hf
    symm; rw [Option.map_some, find_eq_some_iff]
    refine ⟨occursAt_drop.1 h1, fun j hj ho => ?_, by rw [List.length_drop] at h3; omega⟩
    rcases Nat.lt_or_ge j k with hjk | hjk
    · exact h j hjk ho
    · refine h2 (j - k) (by omega) ?_
      rw [occursAt_drop]; rwa [Nat.add_sub_cancel' hjk]

/-! ## The part of a list that may begin an occurrence -/

/-- The longest suffix of a list that is a proper prefix of `p`. -/
def overlap (p : List α) : List α → List α
  | [] => []
  | x :: xs => if (x :: xs).length < p.length ∧ x :: xs <+: p then x :: xs else overlap p xs

theorem overlap_suffix (p : List α) : ∀ l : List α, overlap p l <:+ l
  | [] => List.suffix_rfl
  | x :: xs => by
    unfold overlap; split_ifs with h
    · exact List.suffix_rfl
    · exact (overlap_suffix p xs).trans (List.suffix_cons x xs)

theorem overlap_isPrefix (p : List α) : ∀ l : List α, overlap p l <+: p
  | [] => List.nil_prefix
  | x :: xs => by
    unfold overlap; split_ifs with h
    · exact h.2
    · exact overlap_isPrefix p xs

theorem overlap_length_lt (hp : p ≠ []) : ∀ l : List α, (overlap p l).length < p.length
  | [] => List.length_pos_iff.2 hp
  | x :: xs => by
    unfold overlap; split_ifs with h
    · exact h.1
    · exact overlap_length_lt hp xs

/-- The overlap is the longest suffix with its properties. -/
theorem length_le_overlap {s : List α} (hs : s <:+ l) (hpre : s <+: p)
    (hlt : s.length < p.length) : s.length ≤ (overlap p l).length := by
  induction l with
  | nil => rw [List.suffix_nil.1 hs]; simp
  | cons x xs ih =>
    unfold overlap; split_ifs with h
    · exact hs.length_le
    · rcases List.suffix_cons_iff.1 hs with rfl | hs
      · exact absurd ⟨hlt, hpre⟩ h
      · exact ih hs

/-- A suffix that is a proper prefix of `p` and as long as any other one is the overlap. -/
theorem eq_overlap {s : List α} (hs : s <:+ l) (hpre : s <+: p) (hlt : s.length < p.length)
    (hmax : ∀ u, u <:+ l → u <+: p → u.length < p.length → u.length ≤ s.length) :
    s = overlap p l := by
  have hp : p ≠ [] := by rintro rfl; simp at hlt
  have h1 := length_le_overlap hs hpre hlt
  have h2 := hmax _ (overlap_suffix p l) (overlap_isPrefix p l) (overlap_length_lt hp l)
  exact (List.suffix_of_suffix_length_le hs (overlap_suffix p l) h1).eq_of_length (by omega)

/-- What does not reach the overlap does not matter. -/
theorem overlap_append_left (u : List α) (hl : p.length ≤ l.length + 1) :
    overlap p (u ++ l) = overlap p l := by
  rcases List.eq_nil_or_concat p with rfl | ⟨p', x, rfl⟩
  · rw [List.prefix_nil.1 (overlap_isPrefix [] _), List.prefix_nil.1 (overlap_isPrefix [] _)]
  refine (eq_overlap ((overlap_suffix _ l).trans (List.suffix_append u l)) (overlap_isPrefix _ l)
    (overlap_length_lt (by simp) l) fun w hw hpre hlt => ?_).symm
  exact length_le_overlap (List.suffix_of_suffix_length_le hw (List.suffix_append u l) (by omega))
    hpre hlt

theorem overlap_drop (hk : p.length ≤ (l.drop k).length + 1) :
    overlap p (l.drop k) = overlap p l := by
  rw [← overlap_append_left (l.take k) hk, List.take_append_drop]

/-- **One more element** keeps the overlap as it is iff the overlap consists of this element and
    does not grow by it. -/
theorem overlap_concat_eq_iff (l : List α) (x : α) (hp : p ≠ []) :
    overlap p (l ++ [x]) = overlap p l ↔
      (∀ y ∈ overlap p l, y = x) ∧
        (p[(overlap p l).length]? = some x → (overlap p l).length + 1 = p.length) := by
  obtain ⟨e, he⟩ : ∃ e, e = overlap p l := ⟨_, rfl⟩
  have hsuf : e <:+ l := he ▸ overlap_suffix p l
  have hpre : e <+: p := he ▸ overlap_isPrefix p l
  have hlt : e.length < p.length := he ▸ overlap_length_lt hp l
  rw [← he]
  constructor
  · intro h
    refine ⟨fun y hy => ?_, fun hx => ?_⟩
    · have hne : e ≠ [] := List.ne_nil_of_mem hy
      have hs : e <:+ l ++ [x] := h ▸ overlap_suffix p (l ++ [x])
      rcases List.suffix_concat_iff.1 hs with h0 | ⟨e', h1, h2⟩
      · exact absurd h0 hne
      · refine eq_of_eq_tail_concat hne ?_ y hy
        -- `e'` and the tail of `e` are suffixes of `l` of the same length
        have hlen : e'.length = e.tail.length := by rw [List.length_tail, h1]; simp
        have htl : e.tail <:+ l := (List.tail_suffix e).trans hsuf
        rwa [← (List.suffix_of_suffix_length_le h2 htl hlen.le).eq_of_length hlen]
    · by_contra hlen
      have := length_le_overlap (List.suffix_append_self_iff.2 hsuf : e ++ [x] <:+ l ++ [x])
        (prefix_concat_of_getElem? hpre hx) (by rw [List.length_append, List.length_singleton]; omega)
      rw [h] at this; simp at this
  · rintro ⟨hall, hx⟩
    refine (eq_overlap ?_ hpre hlt fun w hw hwp hwl => ?_).symm
    · by_cases hne : e = []
      · subst hne; exact List.nil_suffix
      · rw [eq_tail_concat hne hall]
        exact List.suffix_append_self_iff.2 ((List.tail_suffix e).trans hsuf)
    · rcases List.suffix_concat_iff.1 hw with rfl | ⟨w', rfl, hw'⟩
      · simp
      -- a longer one would be the overlap followed by `x`
      rw [List.length_append, List.length_singleton] at hwl ⊢
      have hwp' : w' <+: p := (List.prefix_append _ _).trans hwp
      have hle : w'.length ≤ e.length := he ▸ length_le_overlap hw' hwp' (by omega)
      by_contra hgt
      have hwe : w' = e :=
        (List.suffix_of_suffix_length_le hw' hsuf hle).eq_of_length (by omega)
      subst hwe
      obtain ⟨t, rfl⟩ := hwp
      have := hx (by simp)
      omega

/-- **Nothing else of `l` is needed.** When `p` does not occur in `l`, its first occurrence in
    `l ++ t` is its first occurrence in what follows from the overlap on. -/
theorem find_append_overlap (h : find p l = none) (hp : p ≠ []) (t : List α) :
    find p (l ++ t) =
      (find p (overlap p l ++ t)).map (l.length - (overlap p l).length + ·) := by
  set e := overlap p l with he
  obtain ⟨u, hu⟩ : e <:+ l := overlap_suffix p l
  have hul : l.length - e.length = u.length := by rw [← hu]; simp
  have hdrop : (l ++ t).drop u.length = e ++ t := by rw [← hu, List.append_assoc, List.drop_left]
  rw [hul, ← hdrop]
  refine (findFrom_eq_find (k := u.length) (fun j hj ho => ?_) (by rw [← hu]; simp)).symm
  -- an occurrence that starts before the overlap would give a longer one
  rcases Nat.lt_or_ge l.length (j + p.length) with hjl | hjl
  · have hul' : u.length ≤ l.length := by rw [← hu]; simp
    have hpre : l.drop j <+: p := by
      unfold OccursAt at ho
      rw [List.drop_append_of_le_length (by omega)] at ho
      exact List.prefix_of_prefix_length_le (List.prefix_append _ _) ho (by simp; omega)
    have := length_le_overlap (List.drop_suffix j l) hpre (by simp; omega)
    rw [← he, List.length_drop] at this
    omega
  · exact not_occursAt_of_find_none h hp j ((occursAt_append_left hjl).1 ho)

/-! ## Looking on in what was kept -/

/-- To find the first occurrence of `p` in `l` and whatever follows it, `e` is enough. -/
structure Keeps (p l e : List α) : Prop where
  suffix : e <:+ l
  find_append : ∀ t, find p (l ++ t) = (find p (e ++ t)).map (l.length - e.length + ·)

namespace Keeps
variable {e : List α}

theorem refl (p l : List α) : Keeps p l l :=
  ⟨List.suffix_rfl, fun t => by simp⟩

theorem find_eq (h : Keeps p l e) : find p l = (find p e).map (l.length - e.length + ·) := by
  simpa using h.find_append []

theorem append (h : Keeps p l e) (t : List α) : Keeps p (l ++ t) (e ++ t) := by
  obtain ⟨u, rfl⟩ := h.suffix
  refine ⟨⟨u, by rw [List.append_assoc]⟩, fun x => ?_⟩
  have hx := h.find_append (t ++ x)
  rw [List.append_assoc _ t, List.append_assoc e, hx]
  simp only [List.length_append, Nat.add_sub_add_right]

/-- Without an occurrence the overlap is enough. -/
theorem overlap (h : Keeps p l e) (hn : find p e = none) (hp : p ≠ []) :
    Keeps p l (overlap p e) := by
  have hs := overlap_suffix p e
  refine ⟨hs.trans h.suffix, fun t => ?_⟩
  rw [h.find_append, find_append_overlap hn hp, Option.map_map]
  congr 1
  have h1 := hs.length_le
  have h2 := h.suffix.length_le
  ext i
  simp only [Function.comp_apply]; omega

variable (h : Keeps p l e)
include h

theorem take_suffix (i : ℕ) : e.take i <:+ l.take (l.length - e.length + i) := by
  obtain ⟨u, rfl⟩ := h.suffix
  have hu : (u ++ e).length - e.length = u.length := by simp
  rw [hu, List.take_length_add_append]
  exact List.suffix_append u _

theorem drop (i : ℕ) : l.drop (l.length - e.length + i) = e.drop i := by
  obtain ⟨u, rfl⟩ := h.suffix
  have hu : (u ++ e).length - e.length = u.length := by simp
  rw [hu, List.drop_length_add_append]

end Keeps

end Search
