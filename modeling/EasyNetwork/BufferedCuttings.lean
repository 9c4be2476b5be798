/-
  `_buffered_readuntil` on a first packet that is cut into reads.

  `cuttings_agree_iff`: a packet that ends with the first separator, and fits the buffer, is accepted or
  rejected whatever the reads iff it leaves a byte of the buffer free.
-/
import EasyNetwork.Separated

namespace EasyNetwork

open Coroutine Search Framing

namespace BufferedReaduntil

section
variable (ι : Type) (sep buf₀ : Bytes) (reads : List Bytes)

/-- The reads end with the separator, at index `n`. -/
def Accepts (n : ℕ) : Prop :=
  ∃ buf, (bufferedReaduntil sep : BufferGenerator _ _ _ (IncrementalDeserializeError ι)).after buf₀
    reads = some (buf, .returned (n, n + sep.length, reads.flatten.length))

/-- One of the reads ends with a `LimitOverrunError`. -/
def Rejects : Prop :=
  ∃ k buf e message consumed,
    (bufferedReaduntil sep : BufferGenerator _ _ _ (IncrementalDeserializeError ι)).after buf₀
      (reads.take k) = some (buf, .raised e) ∧ e.cause = .limitOverrun message consumed

end

variable {ι : Type} {sep buf₀ d : Bytes} {reads : List Bytes}

/-- As long as the separator has not been received, and two bytes of the buffer are free,
    `_buffered_readuntil` waits. -/
theorem after_none (hsep : sep ≠ []) (hn : find sep reads.flatten = none)
    (hfree : reads = [] ∨ reads.flatten.length + 2 ≤ buf₀.length) :
    ∃ s start buf, (bufferedReaduntil sep :
        BufferGenerator _ _ _ (IncrementalDeserializeError ι)).after buf₀ reads =
          some (buf, .yielded s (some start)) ∧
      BufferedReaduntil.Inv sep buf₀ reads s start buf := by
  induction reads using List.reverseRecOn with
  | nil => exact ⟨.starting, 0, buf₀, rfl, rfl, rfl, rfl, rfl, rfl⟩
  | append_singleton reads c ih =>
    have hfree' := hfree.resolve_left (by simp)
    rw [List.flatten_concat] at hn hfree'
    have hn' : find sep reads.flatten = none := by
      by_contra hne
      obtain ⟨i, hi⟩ := Option.ne_none_iff_exists'.1 hne
      rw [find_append_of_some hi hsep] at hn
      cases hn
    rw [List.length_append] at hfree'
    obtain ⟨s, start, buf, hafter, hinv⟩ := ih hn' (Or.inr (by omega))
    have hfit : start + c.length ≤ buf.length := by
      rw [hinv.start, hinv.length]
      omega
    obtain ⟨h1, h2, h3⟩ := hinv.write hfit
    have hsend : (bufferedReaduntil sep :
        BufferGenerator _ _ _ (IncrementalDeserializeError ι)).after buf₀ (reads ++ [c]) =
          some ((bufferedReaduntil sep).send s (writeAt buf start c) c.length) := by
      rw [BufferGenerator.after, BufferGenerator.sendAll_append]
      rw [BufferGenerator.after] at hafter
      rw [hafter]
      exact if_pos hfit
    rcases bufferedReaduntil_send_none hsep hinv.has h2 hn (ι := ι) with
      ⟨s', h4, h5⟩ | ⟨h4, -⟩
    · rw [hsend, h4]
      refine ⟨s', _, _, rfl, ?_⟩
      rw [← List.flatten_concat] at h2 h3 h5 ⊢
      exact ⟨h5, rfl, h1, h2, h3⟩
    · rw [h1, List.length_append] at h4
      omega

theorem accepts_concat {c : Bytes} {n : ℕ} (hsep : sep ≠ []) (hn : find sep reads.flatten = none)
    (hfree : reads = [] ∨ reads.flatten.length + 2 ≤ buf₀.length)
    (hfit : (reads.flatten ++ c).length ≤ buf₀.length) (hfind : find sep (reads.flatten ++ c) = some n) :
    Accepts ι sep buf₀ (reads ++ [c]) n := by
  obtain ⟨s, start, buf, hafter, hinv⟩ := after_none hsep hn hfree (ι := ι)
  rw [List.length_append] at hfit
  have hwrite : start + c.length ≤ buf.length := by
    rw [hinv.start, hinv.length]
    exact hfit
  obtain ⟨-, h2, -⟩ := hinv.write hwrite
  refine ⟨writeAt buf start c, ?_⟩
  rw [BufferGenerator.after] at hafter
  rw [BufferGenerator.after, BufferGenerator.sendAll_append, hafter, List.flatten_concat,
    ← bufferedReaduntil_send_some hsep hinv.has h2 hfind]
  exact if_pos hwrite

/-- A first read that leaves one byte of the buffer free. -/
theorem after_first {c : Bytes} (hn : find sep c = none) (hlen : c.length + 1 = buf₀.length)
    (hle : sep.length ≤ c.length) :
    (bufferedReaduntil sep : BufferGenerator _ _ _ (IncrementalDeserializeError ι)).after buf₀ [c] =
      some (writeAt buf₀ 0 c, .raised (LimitOverrunError.init
        "Separator is not found, and chunk exceed the limit" (writeAt buf₀ 0 c)
        (c.length + 1 - sep.length) sep)) := by
  have hfit : 0 + c.length ≤ buf₀.length := by omega
  have htake := take_writeAt hfit
  rw [Nat.zero_add, List.take_zero, List.nil_append] at htake
  have hbuf : (writeAt buf₀ 0 c).length = c.length + 1 := (length_writeAt hfit).trans hlen.symm
  refine (if_pos hfit).trans ?_
  refine congrArg (fun r => some (writeAt buf₀ 0 c, r)) ?_
  have hfind : findFrom sep c 0 = none := by
    rw [findFrom_eq_find (by simp) (Nat.zero_le _), hn]
  simp only [bufferedReaduntilLoop, Option.getD_some, htake, hfind, hbuf]
  rw [if_pos (by omega), if_pos (by omega)]

theorem find_none_of_append {b c : Bytes} {n : ℕ} (hsep : sep ≠ []) (hc : c ≠ [])
    (hfind : find sep (b ++ c) = some n) (hend : n + sep.length = (b ++ c).length) :
    find sep b = none := by
  by_contra hne
  obtain ⟨i, hi⟩ := Option.ne_none_iff_exists'.1 hne
  have hle := find_le hi hsep
  rw [find_append_of_some hi hsep, Option.some.injEq] at hfind
  have hpos := List.length_pos_iff.2 hc
  rw [List.length_append] at hend
  omega

/-- **A packet that fits the buffer is accepted by all cuttings or rejected by all cuttings iff it
    leaves a byte of the buffer free.** -/
theorem cuttings_agree_iff (ι : Type) (sep buf₀ d : Bytes) (hsep : sep ≠ [])
    (hbuf : sep.length < buf₀.length) (hfirst : find sep (d ++ sep) = some d.length)
    (hfit : (d ++ sep).length ≤ buf₀.length) :
    ((∀ reads, IsCutting reads (d ++ sep) → Accepts ι sep buf₀ reads d.length) ∨
        ∀ reads, IsCutting reads (d ++ sep) → Rejects ι sep buf₀ reads) ↔
      (d ++ sep).length < buf₀.length := by
  have hpos := List.length_pos_iff.2 hsep
  have hne : d ++ sep ≠ [] := by simp [hsep]
  have hend : d.length + sep.length = (d ++ sep).length := List.length_append.symm
  have hwhole : Accepts ι sep buf₀ [d ++ sep] d.length :=
    @accepts_concat ι sep buf₀ [] _ _ hsep (find_nil hsep) (Or.inl rfl) hfit hfirst
  constructor
  · intro h
    by_contra hlt
    rcases h with haccepts | hrejects
    · -- the last byte comes in a read of its own
      obtain ⟨b, x, hb⟩ : ∃ b x, d ++ sep = b ++ [x] :=
        ⟨_, _, (List.dropLast_append_getLast hne).symm⟩
      have hlen : b.length + 1 = (d ++ sep).length := by
        rw [hb, List.length_append, List.length_singleton]
      have hb₀ : b ≠ [] := List.length_pos_iff.1 (by omega)
      have hcut : IsCutting [b, [x]] (d ++ sep) := ⟨by simp [hb], by simp [hb₀]⟩
      obtain ⟨buf, hafter⟩ := haccepts _ hcut
      rw [hb] at hfirst hend
      have hn := find_none_of_append hsep (List.cons_ne_nil x []) hfirst hend
      have hraise := after_first (ι := ι) hn (show b.length + 1 = buf₀.length by omega) (by omega)
      rw [show [b, [x]] = [b] ++ [[x]] from rfl, BufferGenerator.after,
        BufferGenerator.sendAll_append] at hafter
      rw [BufferGenerator.after] at hraise
      rw [hraise] at hafter
      cases hafter
    · obtain ⟨k, buf, e, message, consumed, hafter, -⟩ := hrejects _ (isCutting_singleton hne)
      obtain ⟨buf', hwhole⟩ := hwhole
      cases k with
      | zero => cases hafter
      | succ k =>
        rw [List.take_succ_cons, List.take_nil, hwhole] at hafter
        cases hafter
  · intro hlt
    refine Or.inl fun reads hcut => ?_
    obtain ⟨cs, c, rfl, hc, hflat⟩ := hcut.concat hne
    have hn := find_none_of_append hsep hc (hflat ▸ hfirst) (hflat ▸ hend)
    refine accepts_concat hsep hn (Or.inr ?_) (hflat ▸ hfit) (hflat ▸ hfirst)
    have hlen := congrArg List.length hflat
    have hcpos := List.length_pos_iff.2 hc
    rw [List.length_append] at hlen
    omega

theorem cuttings_agree_crlf :
    (∀ reads, IsCutting reads [120, 13, 10] →
        Accepts Unit [13, 10] (List.replicate 4 0) reads 1) ∨
      ∀ reads, IsCutting reads [120, 13, 10] → Rejects Unit [13, 10] (List.replicate 4 0) reads :=
  (cuttings_agree_iff Unit [13, 10] (List.replicate 4 0) [120] (by decide) (by decide) (by decide)
    (by decide)).2 (by decide)

/-- A line that fills the buffer: it is accepted in one read, and rejected when its LF comes in a
    read of its own. -/
theorem full_line_cut :
    Accepts Unit [13, 10] (List.replicate 4 0) [[120, 120, 13, 10]] 2 ∧
      Rejects Unit [13, 10] (List.replicate 4 0) [[120, 120, 13], [10]] ∧
      ¬ ((∀ reads, IsCutting reads [120, 120, 13, 10] →
            Accepts Unit [13, 10] (List.replicate 4 0) reads 2) ∨
          ∀ reads, IsCutting reads [120, 120, 13, 10] →
            Rejects Unit [13, 10] (List.replicate 4 0) reads) := by
  have haccepts : Accepts Unit [13, 10] (List.replicate 4 0) [[120, 120, 13, 10]] 2 :=
    ⟨[120, 120, 13, 10], by decide⟩
  refine ⟨haccepts, ⟨1, [120, 120, 13, 0], ⟨.limitOverrun
    "Separator is not found, and chunk exceed the limit" 2, []⟩, _, _, by decide, rfl⟩, ?_⟩
  rintro (h | h)
  · obtain ⟨buf, hafter⟩ := h [[120, 120, 13], [10]] ⟨rfl, by decide⟩
    have hnone : (bufferedReaduntil [13, 10] :
        BufferGenerator _ _ _ (IncrementalDeserializeError Unit)).after (List.replicate 4 0)
          [[120, 120, 13], [10]] = none := by decide
    rw [hnone] at hafter
    cases hafter
  · obtain ⟨k, buf, e, message, consumed, hafter, -⟩ :=
      h [[120, 120, 13, 10]] ⟨rfl, by decide⟩
    obtain ⟨buf', haccepts⟩ := haccepts
    cases k with
    | zero => cases hafter
    | succ k =>
      rw [List.take_succ_cons, List.take_nil, haccepts] at hafter
      cases hafter

end BufferedReaduntil

end EasyNetwork
