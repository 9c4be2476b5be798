/-
  Generators that stay inside the buffer of their caller.

  A `BufferGenerator` is `Bounded` by `L` when, in a buffer of `L` bytes, it always asks for more
  bytes at a place before the end of the buffer, and ends with an outcome that is known.  The code
  that runs after the generator (`Bounded.finish`) and the choice between two generators
  (`Bounded.either`) keep this.
-/
import EasyNetwork.Lib.Coroutine

namespace Coroutine

namespace Resumed
variable {σ σ' Y R E R' E' : Type}

/-- What is yielded, and what the generator ends with. -/
def Satisfies (yields : σ → Y → Prop) (ends : Except E R → Prop) : Resumed σ Y R E → Prop
  | yielded s y => yields s y
  | returned r => ends (.ok r)
  | raised e => ends (.error e)

variable {yields : σ → Y → Prop} {ends : Except E R → Prop} {ends' : Except E' R' → Prop}

theorem satisfies_ofExcept {x : Except E R} (h : ends x) :
    (ofExcept x : Resumed σ Y R E).Satisfies yields ends := by
  cases x with
  | ok r => exact h
  | error e => exact h

theorem Satisfies.finish {k : Except E R → Except E' R'} {r : Resumed σ Y R E}
    (h : r.Satisfies yields ends) (hk : ∀ x, ends x → ends' (k x)) :
    (r.finish k).Satisfies yields ends' := by
  cases r with
  | yielded s y => exact h
  | returned r => exact satisfies_ofExcept (hk _ h)
  | raised e => exact satisfies_ofExcept (hk _ h)

theorem Satisfies.mapState {f : σ → σ'} {yields' : σ' → Y → Prop} {r : Resumed σ Y R E}
    (h : r.Satisfies yields ends) (hf : ∀ s y, yields s y → yields' (f s) y) :
    (r.mapState f).Satisfies yields' ends := by
  cases r with
  | yielded s y => exact hf s y h
  | returned r => exact h
  | raised e => exact h

end Resumed

namespace BufferGenerator
variable {σ σ' α R E R' E' : Type}

/-- In a buffer of `L` bytes, the generator yields places before the end: `0` first, and always the
    one that fits its state (`good`).  `ends` is what is known of the outcome. -/
structure Bounded (G : BufferGenerator σ α R E) (L : ℕ) (good : σ → ℕ → Prop)
    (ends : List α → Except E R → Prop) : Prop where
  next : ∀ buf : List α, buf.length = L → ∃ s y, G.next buf = .yielded s y ∧ y.getD 0 = 0 ∧ good s 0
  length : ∀ s start (buf : List α) n, good s start → buf.length = L → 1 ≤ n → start + n ≤ L →
    (G.send s buf n).1.length = L
  send : ∀ s start (buf : List α) n, good s start → buf.length = L → 1 ≤ n → start + n ≤ L →
    (G.send s buf n).2.Satisfies (fun s' y => y.getD 0 < L ∧ good s' (y.getD 0))
      (ends (G.send s buf n).1)

namespace Bounded
variable {G : BufferGenerator σ α R E} {L : ℕ} {good : σ → ℕ → Prop}
  {ends : List α → Except E R → Prop}

/-- **The code that runs after the generator** sees the outcome only. -/
theorem finish (h : G.Bounded L good ends) {k : List α → Except E R → Except E' R'}
    {ends' : List α → Except E' R' → Prop}
    (hk : ∀ buf x, buf.length = L → ends buf x → ends' buf (k buf x)) :
    (G.finish k).Bounded L good ends' where
  next buf hbuf := by
    obtain ⟨s, y, hnext, hy⟩ := h.next buf hbuf
    refine ⟨s, y, ?_, hy⟩
    show (G.next buf).finish (k buf) = _
    rw [hnext, Resumed.finish_yielded]
  length := h.length
  send s start buf n hgood hbuf hn hle :=
    (h.send s start buf n hgood hbuf hn hle).finish
      (hk _ · (h.length s start buf n hgood hbuf hn hle))

/-- **One of two generators.** -/
theorem either {H : BufferGenerator σ' α R E} {good' : σ' → ℕ → Prop} (left : Bool)
    (h : G.Bounded L good ends) (h' : H.Bounded L good' ends) :
    (BufferGenerator.either left G H).Bounded L (Sum.elim good good') ends where
  next buf hbuf := by
    cases left with
    | true =>
      obtain ⟨s, y, hnext, hy⟩ := h.next buf hbuf
      refine ⟨.inl s, y, ?_, hy⟩
      show (G.next buf).mapState Sum.inl = _
      rw [hnext]
      rfl
    | false =>
      obtain ⟨s, y, hnext, hy⟩ := h'.next buf hbuf
      refine ⟨.inr s, y, ?_, hy⟩
      show (H.next buf).mapState Sum.inr = _
      rw [hnext]
      rfl
  length s start buf n hgood := by
    cases s with
    | inl s => exact h.length s start buf n hgood
    | inr s => exact h'.length s start buf n hgood
  send s start buf n hgood hbuf hn hle := by
    cases s with
    | inl s => exact (h.send s start buf n hgood hbuf hn hle).mapState fun _ _ hy => hy
    | inr s => exact (h'.send s start buf n hgood hbuf hn hle).mapState fun _ _ hy => hy

end Bounded

end BufferGenerator

end Coroutine
