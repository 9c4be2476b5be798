/-
  A queue of segments that is emptied from its front, at most `m` segments at a time.

  `consume n q` takes `n` elements and the segments they exhaust.  A segment is removed by the
  element that follows it or by its own last element, so an empty segment goes only with an
  element behind it, and that element has to be in reach of the same step.  The queues that
  such steps can empty are the `Drainable` ones: a step keeps this property
  (`Drainable.consume`) and finds something to take (`Drainable.window_pos`), and no step
  acquires it (`not_drainable_consume`).
-/
import Mathlib.Data.List.Infix

namespace Gather

variable {α : Type} {m n : ℕ} {q pre rest : List (List α)} {b : List α}

/-- Takes `n` elements from the front of the queue. -/
def consume : ℕ → List (List α) → List (List α)
  | _, [] => []
  | n, b :: q =>
    if n = 0 then b :: q
    else if b.length ≤ n then consume (n - b.length) q
    else b.drop n :: q

/-- What one step has in reach: the first `m` segments. -/
def window (m : ℕ) (q : List (List α)) : List α := (q.take m).flatten

/-- The last segment is not empty, and no `m` consecutive segments are. -/
def Drainable (m : ℕ) (q : List (List α)) : Prop :=
  q.getLast? ≠ some [] ∧ ¬ List.replicate m [] <:+: q

instance [DecidableEq α] : Decidable (Drainable m q) :=
  inferInstanceAs (Decidable (_ ∧ _))

@[simp] theorem consume_zero (q : List (List α)) : consume 0 q = q := by
  cases q <;> simp [consume]

theorem flatten_consume (n : ℕ) (q : List (List α)) :
    (consume n q).flatten = q.flatten.drop n := by
  induction q generalizing n with
  | nil => simp [consume]
  | cons b q ih =>
    rw [consume]
    split_ifs with h0 hb
    · simp [h0]
    · rw [ih, List.flatten_cons, List.drop_append, List.drop_eq_nil_of_le hb, List.nil_append]
    · rw [List.flatten_cons, List.flatten_cons, List.drop_append_of_le_length (by omega)]

/-- A step empties the queue iff it takes everything, and the last segment is not empty. -/
theorem consume_eq_nil_iff (h : n ≤ q.flatten.length) :
    consume n q = [] ↔ n = q.flatten.length ∧ q.getLast? ≠ some [] := by
  induction q generalizing n with
  | nil => simpa [consume] using h
  | cons b q ih =>
    rw [List.flatten_cons, List.length_append] at h ⊢
    rw [consume]
    split_ifs with h0 hb
    · -- nothing is taken, so if this is everything, all segments are empty
      refine iff_of_false id ?_
      rintro ⟨htotal, hlast⟩
      have hempty : ∀ c ∈ b :: q, c = [] := by
        rw [← List.flatten_eq_nil_iff, ← List.length_eq_zero_iff, List.flatten_cons,
          List.length_append]
        omega
      refine hlast ?_
      rw [List.getLast?_eq_some_getLast (List.cons_ne_nil b q), hempty _ (List.getLast_mem _)]
    · rw [ih (by omega)]
      refine and_congr (by omega) ?_
      rcases q with _ | ⟨c, q⟩
      · have hne : b ≠ [] := by
          rintro rfl
          simp only [List.flatten_nil, List.length_nil] at h
          omega
        simpa using hne
      · rw [List.getLast?_cons_cons]
    · refine iff_of_false id ?_
      rintro ⟨htotal, -⟩
      omega

/-- What is taken from a part of the queue leaves the rest alone. -/
theorem consume_append (h : n ≤ pre.flatten.length) :
    consume n (pre ++ rest) = consume n pre ++ rest := by
  induction pre generalizing n with
  | nil =>
    obtain rfl : n = 0 := by simpa using h
    simp
  | cons b pre ih =>
    rw [List.cons_append, consume, consume]
    split_ifs with h0 hb
    · rfl
    · refine ih ?_
      rw [List.flatten_cons, List.length_append] at h
      omega
    · rfl

theorem window_isPrefix (m : ℕ) (q : List (List α)) : window m q <+: q.flatten :=
  ⟨(q.drop m).flatten, by rw [window, ← List.flatten_append, List.take_append_drop]⟩

theorem length_window_le (m : ℕ) (q : List (List α)) : (window m q).length ≤ q.flatten.length :=
  (window_isPrefix m q).length_le

theorem take_window (h : n ≤ (window m q).length) : (window m q).take n = q.flatten.take n := by
  obtain ⟨t, ht⟩ := window_isPrefix m q
  rw [← ht, List.take_append_of_le_length h]

theorem drainable_nil (hm : 0 < m) : Drainable m ([] : List (List α)) := by
  refine ⟨by simp, ?_⟩
  rw [List.infix_nil, List.replicate_eq_nil_iff]
  omega

theorem Drainable.tail (h : Drainable m (b :: q)) (hm : 0 < m) : Drainable m q := by
  rcases q with _ | ⟨c, q⟩
  · exact drainable_nil hm
  · exact ⟨by simpa using h.1, fun hi => h.2 (List.infix_cons hi)⟩

/-- The first segment may be shortened. -/
theorem Drainable.cons {c : List α} (h : Drainable m (b :: q)) (hm : 0 < m) (hc : c ≠ []) :
    Drainable m (c :: q) := by
  obtain ⟨m, rfl⟩ := Nat.exists_eq_succ_of_ne_zero hm.ne'
  constructor
  · rcases q with _ | ⟨d, q⟩
    · simpa using hc
    · simpa using h.1
  · intro hi
    rcases List.infix_cons_iff.1 hi with hp | hi
    · rw [List.replicate_succ, List.cons_prefix_cons] at hp
      exact hc hp.1.symm
    · exact h.2 (List.infix_cons hi)

/-- **Step lemma.** -/
theorem Drainable.consume (h : Drainable m q) (hm : 0 < m) : Drainable m (consume n q) := by
  induction q generalizing n with
  | nil => exact h
  | cons b q ih =>
    rw [Gather.consume]
    split_ifs with h0 hb
    · exact h
    · exact ih (h.tail hm)
    · exact h.cons hm (by rw [Ne, List.drop_eq_nil_iff]; exact hb)

/-- A step finds an element. -/
theorem Drainable.window_pos (h : Drainable m q) (hq : q ≠ []) : 0 < (window m q).length := by
  rw [List.length_pos_iff]
  intro hw
  rw [window, List.flatten_eq_nil_iff] at hw
  rcases Nat.lt_or_ge q.length m with hl | hl
  · rw [List.take_of_length_le hl.le] at hw
    refine h.1 ?_
    rw [List.getLast?_eq_some_getLast hq, hw _ (List.getLast_mem hq)]
  · have hrep : q.take m = List.replicate m [] := by
      rw [List.eq_replicate_iff, List.length_take]
      exact ⟨min_eq_left hl, hw⟩
    exact h.2 (hrep ▸ (List.take_prefix m q).isInfix)

theorem Drainable.of_append (h : Drainable m (pre ++ rest)) (hm : 0 < m) : Drainable m rest := by
  induction pre with
  | nil => exact h
  | cons b pre ih => exact ih (h.tail hm)

/-- The elements in reach come before segments that are never removed. -/
theorem exists_stuck (h : ¬ Drainable m q) :
    ∃ pre rest, q = pre ++ rest ∧ ¬ Drainable m rest ∧
      (window m q).length ≤ pre.flatten.length := by
  by_cases hlast : q.getLast? = some []
  · obtain ⟨pre, rfl⟩ := List.getLast?_eq_some_iff.1 hlast
    refine ⟨pre, [[]], rfl, fun hd => hd.1 rfl, ?_⟩
    have hle := length_window_le m (pre ++ [[]])
    rwa [List.flatten_concat, List.append_nil] at hle
  · have hinf : List.replicate m [] <:+: q := by
      by_contra hi
      exact h ⟨hlast, hi⟩
    obtain ⟨pre, post, rfl⟩ := hinf
    refine ⟨pre, List.replicate m [] ++ post, by rw [List.append_assoc], ?_, ?_⟩
    · intro hd
      exact hd.2 (List.prefix_append _ _).isInfix
    · have hnil : ((List.replicate m ([] : List α) ++ post).take (m - pre.length)).flatten = [] := by
        rw [List.take_append_of_le_length (by simp), List.take_replicate, List.flatten_replicate_nil]
      rw [window, List.append_assoc, List.take_append, List.flatten_append, hnil, List.append_nil]
      exact length_window_le m pre

/-- **Step lemma.** -/
theorem not_drainable_consume (h : ¬ Drainable m q) (hm : 0 < m) (hn : n ≤ (window m q).length) :
    ¬ Drainable m (consume n q) := by
  obtain ⟨pre, rest, rfl, hrest, hle⟩ := exists_stuck h
  rw [consume_append (hn.trans hle)]
  exact fun hd => hrest (hd.of_append hm)

end Gather
