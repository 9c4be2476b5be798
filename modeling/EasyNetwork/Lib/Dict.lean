/-
  Dictionaries that keep the order of insertion.

  The value of a key that is there is replaced in its place; another key comes last.
-/
import Mathlib.Data.List.Nodup
import Mathlib.Data.List.Perm.Lattice

/-- A dictionary. -/
structure Dict (κ V : Type) where
  items : List (κ × V)
  nodup : (items.map Prod.fst).Nodup

namespace Dict
variable {κ V : Type}

def empty : Dict κ V := ⟨[], List.nodup_nil⟩

variable [DecidableEq κ] {d : Dict κ V} {items : List (κ × V)} {key key' k : κ} {value v : V}

/-! ## Lists of items -/

theorem lookup_cons_ite : ((k, v) :: items).lookup key =
    if key = k then some v else items.lookup key := by
  rw [List.lookup_cons]
  by_cases h : key = k
  · rw [if_pos h, beq_iff_eq.2 h]
  · rw [if_neg h, beq_eq_false_iff_ne.2 h]

theorem lookup_eq_none : items.lookup key = none ↔ key ∉ items.map Prod.fst := by
  rw [List.lookup_eq_none_iff, List.mem_map]
  constructor
  · rintro h ⟨e, he, rfl⟩
    exact absurd rfl (bne_iff_ne.1 (h e he))
  · exact fun h e he => bne_iff_ne.2 fun heq => h ⟨e, he, heq.symm⟩

theorem lookup_eq_some (h : (items.map Prod.fst).Nodup) :
    items.lookup key = some value ↔ (key, value) ∈ items := by
  induction items with
  | nil => exact ⟨fun h => (by cases h), fun h => absurd h List.not_mem_nil⟩
  | cons e items ih =>
    obtain ⟨k, v⟩ := e
    obtain ⟨hk, hitems⟩ := List.nodup_cons.1 h
    rw [lookup_cons_ite, List.mem_cons]
    split_ifs with heq
    · subst heq
      constructor
      · intro h
        cases h
        exact .inl rfl
      · rintro (h | h)
        · cases h
          rfl
        · exact absurd (List.mem_map_of_mem h) hk
    · rw [ih hitems]
      refine ⟨.inr, ?_⟩
      rintro (h | h)
      · cases h
        exact absurd rfl heq
      · exact h

def replace (key : κ) (value : V) : List (κ × V) → List (κ × V)
  | [] => [(key, value)]
  | (k, v) :: items => if key = k then (key, value) :: items else (k, v) :: replace key value items

theorem lookup_replace_self (key : κ) (value : V) (items : List (κ × V)) :
    (replace key value items).lookup key = some value := by
  induction items with
  | nil => rw [replace, lookup_cons_ite, if_pos rfl]
  | cons e items ih =>
    rw [replace]
    split_ifs with h
    · rw [lookup_cons_ite, if_pos rfl]
    · rw [lookup_cons_ite, if_neg h, ih]

theorem lookup_replace_of_ne (h : key' ≠ key) (value : V) (items : List (κ × V)) :
    (replace key value items).lookup key' = items.lookup key' := by
  induction items with
  | nil => rw [replace, lookup_cons_ite, if_neg h]
  | cons e items ih =>
    rw [replace]
    split_ifs with heq
    · rw [lookup_cons_ite, lookup_cons_ite, if_neg h, ← heq, if_neg h]
    · rw [lookup_cons_ite, lookup_cons_ite, ih]

/-- A new key. -/
theorem replace_of_not_mem (h : key ∉ items.map Prod.fst) (value : V) :
    replace key value items = items ++ [(key, value)] := by
  induction items with
  | nil => rfl
  | cons e items ih =>
    obtain ⟨hk, hitems⟩ := not_or.1 fun h' => h (List.mem_cons.2 h')
    rw [replace, if_neg hk, ih hitems, List.cons_append]

theorem replace_replace (key : κ) (value v : V) (items : List (κ × V)) :
    replace key v (replace key value items) = replace key v items := by
  induction items with
  | nil => exact if_pos rfl
  | cons e items ih =>
    rw [replace, replace]
    split_ifs with h
    · exact if_pos rfl
    · rw [replace, if_neg h, ih]

/-- The keys stay, in their order. -/
theorem map_fst_replace (h : key ∈ items.map Prod.fst) (value : V) :
    (replace key value items).map Prod.fst = items.map Prod.fst := by
  induction items with
  | nil => cases h
  | cons e items ih =>
    rw [replace]
    split_ifs with heq
    · rw [List.map_cons, List.map_cons, heq]
    · rw [List.map_cons, List.map_cons, ih ((List.mem_cons.1 h).resolve_left heq)]

theorem nodup_replace (h : (items.map Prod.fst).Nodup) (key : κ) (value : V) :
    ((replace key value items).map Prod.fst).Nodup := by
  by_cases hmem : key ∈ items.map Prod.fst
  · rwa [map_fst_replace hmem]
  · rw [replace_of_not_mem hmem, List.map_append]
    refine List.nodup_append.2 ⟨h, List.nodup_singleton key, fun a ha b hb heq => hmem ?_⟩
    obtain rfl : b = key := List.mem_singleton.1 hb
    exact heq ▸ ha

/-! ## The operations -/

/-- `d.get(key)` -/
def get? (d : Dict κ V) (key : κ) : Option V := d.items.lookup key

/-- `d[key] = value` -/
def set (d : Dict κ V) (key : κ) (value : V) : Dict κ V :=
  ⟨replace key value d.items, nodup_replace d.nodup key value⟩

theorem get?_eq_some : d.get? key = some value ↔ (key, value) ∈ d.items := lookup_eq_some d.nodup

theorem get?_set_self (d : Dict κ V) (key : κ) (value : V) :
    (d.set key value).get? key = some value := lookup_replace_self key value d.items

theorem get?_set_of_ne (h : key' ≠ key) : (d.set key value).get? key' = d.get? key' :=
  lookup_replace_of_ne h value d.items

theorem set_set (d : Dict κ V) (key : κ) (value v : V) :
    (d.set key value).set key v = d.set key v := by
  simp only [set, replace_replace]

/-- A new key comes last. -/
theorem items_set (h : key ∉ d.items.map Prod.fst) (value : V) :
    (d.set key value).items = d.items ++ [(key, value)] := replace_of_not_mem h value

/-- What is taken from the values of one key only. -/
theorem flatMap_eq {α : Type} {f : κ × V → List α}
    (h : ∀ k v, (k, v) ∈ d.items → k ≠ key → f (k, v) = []) :
    d.items.flatMap f = ((d.get? key).map fun v => f (key, v)).getD [] := by
  obtain ⟨items, nodup⟩ := d
  dsimp only [get?] at h ⊢
  induction items with
  | nil => rfl
  | cons e items ih =>
    obtain ⟨k, v⟩ := e
    obtain ⟨hk, hitems⟩ := List.nodup_cons.1 nodup
    have hrest := ih hitems fun k v hmem => h k v (List.mem_cons_of_mem _ hmem)
    rw [List.flatMap_cons, hrest, lookup_cons_ite]
    split_ifs with heq
    · subst heq
      rw [lookup_eq_none.2 hk, Option.map_none, Option.getD_none, List.append_nil]
      rfl
    · rw [h k v List.mem_cons_self (Ne.symm heq), List.nil_append]

end Dict
