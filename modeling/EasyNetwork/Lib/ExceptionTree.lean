/-
  Exceptions and exception groups, as trees.

  `split p` takes a tree apart: what is left of it when the leaves that do not satisfy `p`, and the
  groups that become empty, are removed, and the complement.  The leaves of both are those of the
  tree, filtered (`leaves_split`).
-/
import Mathlib.Data.List.Basic

/-- A bare exception, or a group with its message. -/
inductive ExceptionTree (ε : Type) where
  | bare (exc : ε)
  | group (message : String) (excs : List (ExceptionTree ε))

namespace ExceptionTree

variable {ε : Type} {p : ε → Bool}

mutual

/-- The exceptions of a tree that are no groups, from left to right. -/
def leaves : ExceptionTree ε → List ε
  | .bare exc => [exc]
  | .group _ excs => leavesAll excs

/-- Those of several trees. -/
def leavesAll : List (ExceptionTree ε) → List ε
  | [] => []
  | t :: ts => leaves t ++ leavesAll ts

end

/-- A group like another one; there is no group without exceptions. -/
def derive (message : String) : List (ExceptionTree ε) → Option (ExceptionTree ε)
  | [] => none
  | t :: ts => some (.group message (t :: ts))

mutual

/-- The part of a tree with the leaves that satisfy `p`, and the rest. -/
def split (p : ε → Bool) : ExceptionTree ε → Option (ExceptionTree ε) × Option (ExceptionTree ε)
  | .bare exc => if p exc then (some (.bare exc), none) else (none, some (.bare exc))
  | .group message excs =>
    (derive message (splitAll p excs).1, derive message (splitAll p excs).2)

/-- The parts of several trees. -/
def splitAll (p : ε → Bool) :
    List (ExceptionTree ε) → List (ExceptionTree ε) × List (ExceptionTree ε)
  | [] => ([], [])
  | t :: ts =>
    ((split p t).1.toList ++ (splitAll p ts).1, (split p t).2.toList ++ (splitAll p ts).2)

end

@[simp] theorem leavesAll_nil : leavesAll ([] : List (ExceptionTree ε)) = [] := by
  rw [leavesAll]

@[simp] theorem leavesAll_cons (t : ExceptionTree ε) (ts : List (ExceptionTree ε)) :
    leavesAll (t :: ts) = t.leaves ++ leavesAll ts := by
  rw [leavesAll]

@[simp] theorem leavesAll_append (ts us : List (ExceptionTree ε)) :
    leavesAll (ts ++ us) = leavesAll ts ++ leavesAll us := by
  induction ts with
  | nil => rfl
  | cons t ts ih => rw [List.cons_append, leavesAll_cons, leavesAll_cons, ih, List.append_assoc]

theorem leavesAll_derive (message : String) (ts : List (ExceptionTree ε)) :
    leavesAll (derive message ts).toList = leavesAll ts := by
  cases ts with
  | nil => rfl
  | cons t ts => simp only [derive, Option.toList_some, leavesAll_cons, leavesAll_nil, leaves,
      List.append_nil]

mutual

/-- **The leaves are partitioned, in order.** -/
theorem leaves_split (p : ε → Bool) (t : ExceptionTree ε) :
    leavesAll (split p t).1.toList = t.leaves.filter p ∧
      leavesAll (split p t).2.toList = t.leaves.filter fun exc => !p exc := by
  cases t with
  | bare exc =>
    rw [split, leaves]
    cases hp : p exc <;> simp [hp, leaves]
  | group message excs =>
    rw [split, leaves, leavesAll_derive, leavesAll_derive]
    exact leavesAll_splitAll p excs

theorem leavesAll_splitAll (p : ε → Bool) (ts : List (ExceptionTree ε)) :
    leavesAll (splitAll p ts).1 = (leavesAll ts).filter p ∧
      leavesAll (splitAll p ts).2 = (leavesAll ts).filter fun exc => !p exc := by
  cases ts with
  | nil => exact ⟨rfl, rfl⟩
  | cons t ts =>
    obtain ⟨ht, ht'⟩ := leaves_split p t
    obtain ⟨hts, hts'⟩ := leavesAll_splitAll p ts
    simp only [splitAll, leavesAll_append, leavesAll_cons, List.filter_append, ht, ht', hts, hts',
      and_self]

end

theorem leaves_ne_nil_of_derive {message : String} {ts : List (ExceptionTree ε)}
    {t : ExceptionTree ε} (hts : ∀ u ∈ ts, u.leaves ≠ []) (h : derive message ts = some t) :
    t.leaves ≠ [] := by
  cases ts with
  | nil => cases h
  | cons u us =>
    cases h
    rw [leaves, leavesAll_cons]
    exact List.append_ne_nil_of_left_ne_nil (hts u List.mem_cons_self) _

mutual

/-- The parts have leaves. -/
theorem leaves_ne_nil_of_split (p : ε → Bool) (t : ExceptionTree ε) :
    (∀ u, (split p t).1 = some u → u.leaves ≠ []) ∧
      ∀ u, (split p t).2 = some u → u.leaves ≠ [] := by
  cases t with
  | bare exc =>
    have hbare : (bare exc).leaves ≠ [] := by
      rw [leaves]
      exact List.cons_ne_nil exc []
    rw [split]
    cases hp : p exc
    · exact ⟨nofun, fun u hu => Option.some.inj hu ▸ hbare⟩
    · exact ⟨fun u hu => Option.some.inj hu ▸ hbare, nofun⟩
  | group message excs =>
    obtain ⟨hmatch, hrest⟩ := leaves_ne_nil_of_splitAll p excs
    rw [split]
    exact ⟨fun u => leaves_ne_nil_of_derive hmatch, fun u => leaves_ne_nil_of_derive hrest⟩

theorem leaves_ne_nil_of_splitAll (p : ε → Bool) (ts : List (ExceptionTree ε)) :
    (∀ u ∈ (splitAll p ts).1, u.leaves ≠ []) ∧ ∀ u ∈ (splitAll p ts).2, u.leaves ≠ [] := by
  cases ts with
  | nil => exact ⟨nofun, nofun⟩
  | cons t ts =>
    obtain ⟨ht, ht'⟩ := leaves_ne_nil_of_split p t
    obtain ⟨hts, hts'⟩ := leaves_ne_nil_of_splitAll p ts
    rw [splitAll]
    constructor
    · intro u hu
      rcases List.mem_append.1 hu with hu | hu
      · exact ht u (Option.mem_toList.1 hu)
      · exact hts u hu
    · intro u hu
      rcases List.mem_append.1 hu with hu | hu
      · exact ht' u (Option.mem_toList.1 hu)
      · exact hts' u hu

end

/-- A part with the leaves of a list, which has some. -/
theorem part_cases {o : Option (ExceptionTree ε)} {l : List ε} (hleaves : leavesAll o.toList = l)
    (hne : ∀ u, o = some u → u.leaves ≠ []) :
    o = none ∧ l = [] ∨ ∃ t, o = some t ∧ t.leaves = l ∧ l ≠ [] := by
  cases o with
  | none => exact .inl ⟨rfl, hleaves.symm⟩
  | some t =>
    have ht : t.leaves = l := by
      rw [← hleaves]
      simp only [Option.toList_some, leavesAll_cons, leavesAll_nil, List.append_nil]
    exact .inr ⟨t, rfl, ht, ht ▸ hne t rfl⟩

/-- **A tree is split into the parts that have leaves.** -/
theorem split_cases (p : ε → Bool) (t : ExceptionTree ε) :
    ((split p t).1 = none ∧ t.leaves.filter p = [] ∨
      ∃ u, (split p t).1 = some u ∧ u.leaves = t.leaves.filter p ∧ t.leaves.filter p ≠ []) ∧
    ((split p t).2 = none ∧ t.leaves.filter (fun exc => !p exc) = [] ∨
      ∃ u, (split p t).2 = some u ∧ u.leaves = t.leaves.filter (fun exc => !p exc) ∧
        t.leaves.filter (fun exc => !p exc) ≠ []) := by
  obtain ⟨hmatch, hrest⟩ := leaves_split p t
  obtain ⟨hmatch', hrest'⟩ := leaves_ne_nil_of_split p t
  exact ⟨part_cases hmatch hmatch', part_cases hrest hrest'⟩

end ExceptionTree
