/-
  Generators as state machines.

  A suspended generator is a value of a state type `σ`.  Resuming it suspends it
  again (`yielded`), ends it with a value (`returned`) or with an exception
  (`raised`).  A `Generator` receives the sent values only; a `BufferGenerator`
  shares a mutable buffer with its caller, who writes into the buffer before he
  sends the number of bytes written.
-/
import Mathlib.Data.List.Induction

namespace Coroutine

/-- What a generator does when it is resumed. -/
inductive Resumed (σ Y R E : Type) where
  | yielded (s : σ) (y : Y)
  | returned (r : R)
  | raised (e : E)
  deriving DecidableEq, Repr

namespace Resumed
variable {σ Y R E R' E' : Type}

/-- The end of a generator. -/
def ofExcept : Except E R → Resumed σ Y R E
  | .ok r => .returned r
  | .error e => .raised e

/-- `yield from`, followed by code that does not suspend: the yields pass through, and `k` is
    run on the outcome. -/
def finish (k : Except E R → Except E' R') : Resumed σ Y R E → Resumed σ Y R' E'
  | yielded s y => .yielded s y
  | returned r => ofExcept (k (.ok r))
  | raised e => ofExcept (k (.error e))

/-- The suspended states seen in another type. -/
def mapState {σ' : Type} (f : σ → σ') : Resumed σ Y R E → Resumed σ' Y R E
  | yielded s y => .yielded (f s) y
  | returned r => .returned r
  | raised e => .raised e

variable (k : Except E R → Except E' R')

@[simp] theorem ofExcept_ok (r : R) : (ofExcept (.ok r) : Resumed σ Y R E) = returned r := rfl

@[simp] theorem ofExcept_error (e : E) : (ofExcept (.error e) : Resumed σ Y R E) = raised e := rfl

@[simp] theorem ofExcept_eq_raised {x : Except E R} {e : E} :
    (ofExcept x : Resumed σ Y R E) = raised e ↔ x = .error e := by
  cases x <;> simp

@[simp] theorem finish_yielded (s : σ) (y : Y) :
    (yielded s y : Resumed σ Y R E).finish k = .yielded s y := rfl

@[simp] theorem finish_returned (r : R) :
    (returned r : Resumed σ Y R E).finish k = ofExcept (k (.ok r)) := rfl

@[simp] theorem finish_raised (e : E) :
    (raised e : Resumed σ Y R E).finish k = ofExcept (k (.error e)) := rfl

@[simp] theorem finish_ofExcept (x : Except E R) :
    (ofExcept x : Resumed σ Y R E).finish k = ofExcept (k x) := by cases x <;> rfl

end Resumed

/-- A generator: the effect of the first `next`, and of `send`. -/
structure Generator (σ I Y R E : Type) where
  next : Resumed σ Y R E
  send : σ → I → Resumed σ Y R E

namespace Generator
variable {σ I Y R E R' E' : Type} (G : Generator σ I Y R E)

/-- The generator that runs `G` and then the code `k`. -/
def finish (k : Except E R → Except E' R') : Generator σ I Y R' E' where
  next := G.next.finish k
  send s i := (G.send s i).finish k

/-- `G` or `H`. -/
def either {σ' : Type} (left : Bool) (G : Generator σ I Y R E) (H : Generator σ' I Y R E) :
    Generator (σ ⊕ σ') I Y R E where
  next := if left then G.next.mapState .inl else H.next.mapState .inr
  send
    | .inl s, i => (G.send s i).mapState .inl
    | .inr s, i => (H.send s i).mapState .inr

/-- Send the values one after the other; `none` if the generator ends before the last one. -/
def sendAll : Resumed σ Y R E → List I → Option (Resumed σ Y R E)
  | r, [] => some r
  | .yielded s _, i :: is => sendAll (G.send s i) is
  | .returned _, _ :: _ | .raised _, _ :: _ => none

/-- The generator after `next` and the sent values `is`. -/
def after (is : List I) : Option (Resumed σ Y R E) := G.sendAll G.next is

variable {G}

theorem sendAll_append (r : Resumed σ Y R E) (is js : List I) :
    G.sendAll r (is ++ js) = (G.sendAll r is).bind fun r' => G.sendAll r' js := by
  induction is generalizing r with
  | nil => rfl
  | cons i is ih =>
    cases r with
    | yielded s y => exact ih _
    | returned r => rfl
    | raised e => rfl

theorem after_concat (is : List I) (i : I) :
    G.after (is ++ [i]) = (G.after is).bind fun r => G.sendAll r [i] := sendAll_append _ _ _

theorem sendAll_finish (k : Except E R → Except E' R') (r : Resumed σ Y R E) (is : List I) :
    (G.finish k).sendAll (r.finish k) is = (G.sendAll r is).map (Resumed.finish k) := by
  induction is generalizing r with
  | nil => cases r <;> rfl
  | cons i is ih =>
    cases r with
    | yielded s y => exact ih _
    | returned r => simp only [Resumed.finish_returned]; cases k (.ok r) <;> rfl
    | raised e => simp only [Resumed.finish_raised]; cases k (.error e) <;> rfl

/-- What runs after the generator does not change what it does before. -/
theorem after_finish (k : Except E R → Except E' R') (is : List I) :
    (G.finish k).after is = (G.after is).map (Resumed.finish k) := sendAll_finish k _ is

/-- **Invariant rule.** An invariant of the suspended states that every `send` keeps holds of the
    state after any sent values, and what ends the generator is what a `send` gives in a state
    with the invariant. -/
theorem after_inv (inv : σ → List I → Prop) {P : List I → Resumed σ Y R E → Prop}
    (h0 : ∀ s y, G.next = .yielded s y → inv s []) (hn : P [] G.next)
    (hs : ∀ s is i, inv s is → P (is ++ [i]) (G.send s i) ∧
      ∀ s' y, G.send s i = .yielded s' y → inv s' (is ++ [i])) :
    ∀ is r, G.after is = some r → P is r ∧ ∀ s y, r = .yielded s y → inv s is := by
  intro is
  induction is using List.reverseRecOn with
  | nil => rintro r h; cases h; exact ⟨hn, h0⟩
  | append_singleton is i ih =>
    intro r h
    rw [after_concat, Option.bind_eq_some_iff] at h
    obtain ⟨r', h1, h2⟩ := h
    cases r' with
    | yielded s y => cases h2; exact hs s is i ((ih _ h1).2 s y rfl)
    | returned r => cases h2
    | raised e => cases h2

end Generator

/-! ## Generators that share a buffer -/

section
variable {α : Type}

/-- The buffer after `data` has been written into it at index `i`. -/
def writeAt (buf : List α) (i : ℕ) (data : List α) : List α :=
  buf.take i ++ data ++ buf.drop (i + data.length)

variable {buf data : List α} {i : ℕ}

theorem length_writeAt (h : i + data.length ≤ buf.length) :
    (writeAt buf i data).length = buf.length := by
  simp only [writeAt, List.length_append, List.length_take, List.length_drop]; omega

theorem take_writeAt (h : i + data.length ≤ buf.length) :
    (writeAt buf i data).take (i + data.length) = buf.take i ++ data := by
  have hl : (buf.take i ++ data).length = i + data.length := by
    rw [List.length_append, List.length_take]; omega
  rw [writeAt, ← hl, List.take_left]

theorem drop_writeAt (h : i + data.length ≤ buf.length) :
    (writeAt buf i data).drop (i + data.length) = buf.drop (i + data.length) := by
  have hl : (buf.take i ++ data).length = i + data.length := by
    rw [List.length_append, List.length_take]; omega
  rw [writeAt]; nth_rewrite 1 [← hl]; rw [List.drop_left]

end

/-- A generator that shares a buffer with its caller.  It is given the buffer when it is resumed
    and may change it; what it yields is where the caller has to write next. -/
structure BufferGenerator (σ α R E : Type) where
  next : List α → Resumed σ (Option ℕ) R E
  send : σ → List α → ℕ → List α × Resumed σ (Option ℕ) R E

namespace BufferGenerator
variable {σ α R E R' E' : Type} (G : BufferGenerator σ α R E)

/-- The generator that runs `G` and then the code `k`, which reads the buffer. -/
def finish (k : List α → Except E R → Except E' R') : BufferGenerator σ α R' E' where
  next buf := (G.next buf).finish (k buf)
  send s buf n := let r := G.send s buf n; (r.1, r.2.finish (k r.1))

/-- `G` or `H`. -/
def either {σ' : Type} (left : Bool) (G : BufferGenerator σ α R E) (H : BufferGenerator σ' α R E) :
    BufferGenerator (σ ⊕ σ') α R E where
  next buf := if left then (G.next buf).mapState .inl else (H.next buf).mapState .inr
  send
    | .inl s, buf, n => let r := G.send s buf n; (r.1, r.2.mapState .inl)
    | .inr s, buf, n => let r := H.send s buf n; (r.1, r.2.mapState .inr)

/-- Write the reads one after the other where the generator asks for them, each followed by a
    `send`; `none` if the generator ends before the last one or a read does not fit. -/
def sendAll : List α × Resumed σ (Option ℕ) R E → List (List α) →
    Option (List α × Resumed σ (Option ℕ) R E)
  | br, [] => some br
  | (buf, .yielded s y), d :: ds =>
    if y.getD 0 + d.length ≤ buf.length then
      sendAll (G.send s (writeAt buf (y.getD 0) d) d.length) ds
    else none
  | (_, .returned _), _ :: _ | (_, .raised _), _ :: _ => none

/-- The buffer and the generator after `next` and the reads `ds`. -/
def after (buf : List α) (ds : List (List α)) : Option (List α × Resumed σ (Option ℕ) R E) :=
  G.sendAll (buf, G.next buf) ds

variable {G}

theorem sendAll_append (br : List α × Resumed σ (Option ℕ) R E) (ds es : List (List α)) :
    G.sendAll br (ds ++ es) = (G.sendAll br ds).bind fun br' => G.sendAll br' es := by
  induction ds generalizing br with
  | nil => rfl
  | cons d ds ih =>
    obtain ⟨buf, s | r | e⟩ := br
    · simp only [List.cons_append, sendAll]
      split_ifs
      · exact ih _
      · rfl
    · rfl
    · rfl

/-- **Invariant rule** for generators that share a buffer (see `Generator.after_inv`). -/
theorem after_inv {buf₀ : List α} (inv : List (List α) → σ → ℕ → List α → Prop)
    {P : List (List α) → List α × Resumed σ (Option ℕ) R E → Prop}
    (h0 : ∀ s y, G.next buf₀ = .yielded s y → inv [] s (y.getD 0) buf₀)
    (hn : P [] (buf₀, G.next buf₀))
    (hs : ∀ ds s n buf d, inv ds s n buf → n + d.length ≤ buf.length →
      P (ds ++ [d]) (G.send s (writeAt buf n d) d.length) ∧
        ∀ s' y, (G.send s (writeAt buf n d) d.length).2 = .yielded s' y →
          inv (ds ++ [d]) s' (y.getD 0) (G.send s (writeAt buf n d) d.length).1) :
    ∀ ds br, G.after buf₀ ds = some br →
      P ds br ∧ ∀ s y, br.2 = .yielded s y → inv ds s (y.getD 0) br.1 := by
  intro ds
  induction ds using List.reverseRecOn with
  | nil => rintro br h; cases h; exact ⟨hn, h0⟩
  | append_singleton ds d ih =>
    intro br h
    rw [after, sendAll_append, Option.bind_eq_some_iff] at h
    obtain ⟨⟨buf, s | r | e⟩, h1, h2⟩ := h
    · next y =>
      have hi := (ih _ h1).2 s y rfl
      simp only [sendAll] at h2
      split_ifs at h2 with hl
      cases h2; exact hs ds s _ buf d hi hl
    · cases h2
    · cases h2

end BufferGenerator

end Coroutine
