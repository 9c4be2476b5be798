/-
  `GeneratorStreamReader` (`serializers/tools.py`).

  The reader holds the bytes that were sent to the generator and not yet consumed
  (`__buffer`).  `readUntil` is the generator `read_until`: it suspends in the loop
  that waits for a first byte (`filling`), or in the loop that searches the separator
  (`searching`, with the local variables `buffer` and `offset`).

  `readUntil_send_some`, `readUntil_send_none`: a suspended `read_until` has received bytes
  without the separator (`ReadUntil.Has`), and the next chunk ends it iff the separator occurs in
  all that was received, wherever the chunks are cut.
-/
import EasyNetwork.Lib.Coroutine
import EasyNetwork.Exceptions

namespace EasyNetwork

open Coroutine Search

/-- Where `read_until` is suspended. -/
inductive ReadUntil where
  /-- in `while not buffer` -/
  | filling
  /-- at `buffer += yield` -/
  | searching (buffer : Bytes) (offset : ℕ)
  deriving DecidableEq, Repr

/-- What a method of the reader may raise. -/
inductive ReaderError (ι : Type) where
  | limitOverrun (e : IncrementalDeserializeError ι)
  | valueError (message : String)
  deriving DecidableEq, Repr

namespace GeneratorStreamReader
variable {ι : Type}

/-- The data that is returned, or the exception, with the reader's buffer afterwards. -/
abbrev Result (ι : Type) := Resumed ReadUntil Unit (Bytes × Bytes) (ReaderError ι × Bytes)

/-- After the loop of `read_until`: the separator is at `sepidx`. -/
def readUntilFound (separator : Bytes) (limit : ℕ) (keepEnd : Bool) (buffer : Bytes)
    (sepidx : ℕ) : Result ι :=
  if sepidx > limit then
    .raised (.limitOverrun (LimitOverrunError.init
      "Separator is found, but chunk is longer than limit" buffer sepidx separator), buffer)
  else
    let offset := sepidx + separator.length
    let data := if keepEnd then buffer.take offset else buffer.take sepidx
    .returned (data, buffer.drop offset)

/-- One round of `while True` in `read_until`. -/
def readUntilLoop (separator : Bytes) (limit : ℕ) (keepEnd : Bool) (buffer : Bytes)
    (offset : ℕ) : Result ι :=
  let buflen := buffer.length
  let seplen := separator.length
  if buflen - offset ≥ seplen then
    match findFrom separator buffer offset with
    | some sepidx => readUntilFound separator limit keepEnd buffer sepidx
    | none =>
      let offset := buflen + 1 - seplen
      if offset > limit then
        .raised (.limitOverrun (LimitOverrunError.init
          "Separator is not found, and chunk exceed the limit" buffer offset separator), buffer)
      else .yielded (.searching buffer offset) ()
  else .yielded (.searching buffer offset) ()

/-- `read_until(separator, limit, keep_end=keepEnd)` on a reader that holds `buffer`. -/
def readUntil (separator : Bytes) (limit : ℕ) (keepEnd : Bool) (buffer : Bytes) :
    Generator ReadUntil Bytes Unit (Bytes × Bytes) (ReaderError ι × Bytes) where
  next :=
    if limit = 0 then .raised (.valueError "limit must be a positive integer", buffer)
    else if separator.length < 1 then .raised (.valueError "Empty separator", buffer)
    else if buffer = [] then .yielded .filling ()
    else readUntilLoop separator limit keepEnd buffer 0
  send
    | .filling, chunk =>
      if chunk = [] then .yielded .filling ()
      else readUntilLoop separator limit keepEnd chunk 0
    | .searching buffer offset, chunk =>
      readUntilLoop separator limit keepEnd (buffer ++ chunk) offset

/-- `read_until(separator, limit, keep_end=False)` and then `read_all()`, on a new reader: the data
    and the remainder. -/
def readFrame (separator : Bytes) (limit : ℕ) :
    Generator ReadUntil Bytes Unit (Bytes × Bytes) (SerializerError ι) :=
  (readUntil separator limit false []).finish fun
    | .error (.limitOverrun e, _) => .error (.incremental e)
    | .error (.valueError message, _) => .error (.other message)
    | .ok (data, remainder) => .ok (data, remainder)

end GeneratorStreamReader

/-! ## What a suspended `read_until` knows -/

/-- The generator suspended in `s` has received the bytes `b`, which do not contain the
    separator, and need not search again before its offset. -/
def ReadUntil.Has (sep : Bytes) : ReadUntil → Bytes → Prop
  | .filling, b => b = []
  | .searching buffer offset, b =>
    buffer = b ∧ find sep b = none ∧ offset = b.length + 1 - sep.length

namespace GeneratorStreamReader
variable {ι : Type} {sep b c : Bytes} {limit offset i : ℕ} {keepEnd : Bool} {s : ReadUntil}

/-- No occurrence in the grown buffer starts before the offset. -/
theorem offset_spec (hsep : sep ≠ []) (hn : find sep b = none) :
    b.length + 1 - sep.length ≤ (b ++ c).length ∧
      ∀ j < b.length + 1 - sep.length, ¬ OccursAt sep (b ++ c) j := by
  have := List.length_pos_iff.2 hsep
  rw [List.length_append]
  refine ⟨by omega, fun j hj ho' => ?_⟩
  exact not_occursAt_of_find_none hn hsep j ((occursAt_append_left (by omega)).1 ho')

theorem readUntilFound_of_le (h : i ≤ limit) :
    (readUntilFound sep limit false b i : Result ι) =
      .returned (b.take i, b.drop (i + sep.length)) := by
  rw [readUntilFound, if_neg (by omega)]; rfl

theorem readUntilFound_of_lt (h : limit < i) :
    (readUntilFound sep limit keepEnd b i : Result ι) =
      .raised (.limitOverrun (LimitOverrunError.init
        "Separator is found, but chunk is longer than limit" b i sep), b) := by
  rw [readUntilFound, if_pos h]

theorem readUntilLoop_some (hoff : offset ≤ b.length) (hb : ∀ j < offset, ¬ OccursAt sep b j)
    (hsep : sep ≠ []) (h : find sep b = some i) :
    readUntilLoop sep limit keepEnd b offset =
      (readUntilFound sep limit keepEnd b i : Result ι) := by
  have hi := find_le h hsep
  have hge : offset ≤ i := by
    by_contra hlt
    exact hb i (by omega) (find_eq_some_iff.1 h).1
  unfold readUntilLoop
  simp only [findFrom_eq_find hb hoff, h]
  rw [if_pos (by omega)]

/-- Without the separator the loop goes on, unless the bytes that cannot begin a separator any
    more exceed the limit. -/
theorem readUntilLoop_none (hoff : offset ≤ b.length) (hb : ∀ j < offset, ¬ OccursAt sep b j)
    (h : find sep b = none)
    (ho : b.length < offset + sep.length → offset = b.length + 1 - sep.length) :
    ((readUntilLoop sep limit keepEnd b offset : Result ι) =
        .yielded (.searching b (b.length + 1 - sep.length)) ()) ∨
      (limit < b.length + 1 - sep.length ∧
        (readUntilLoop sep limit keepEnd b offset : Result ι) =
          .raised (.limitOverrun (LimitOverrunError.init
            "Separator is not found, and chunk exceed the limit" b (b.length + 1 - sep.length)
              sep), b)) := by
  unfold readUntilLoop
  simp only [findFrom_eq_find hb hoff, h]
  split_ifs with h1 h2
  · exact Or.inr ⟨h2, rfl⟩
  · exact Or.inl rfl
  · rw [ho (by omega)]; exact Or.inl rfl

section
variable (limit keepEnd) (hsep : sep ≠ []) (hs : s.Has sep b)
include hsep hs

/-- **The chunk that completes the separator ends `read_until`.** -/
theorem readUntil_send_some (h : find sep (b ++ c) = some i) :
    (readUntil sep limit keepEnd [] : Generator _ _ _ _ (ReaderError ι × Bytes)).send s c =
      readUntilFound sep limit keepEnd (b ++ c) i := by
  cases s with
  | filling =>
    cases hs
    have hc : c ≠ [] := by rintro rfl; rw [List.append_nil, find_nil hsep] at h; cases h
    simp only [readUntil, if_neg hc]
    exact readUntilLoop_some (by simp) (by simp) hsep h
  | searching buffer offset =>
    obtain ⟨rfl, hn, rfl⟩ := hs
    obtain ⟨h1, h2⟩ := offset_spec (c := c) hsep hn
    exact readUntilLoop_some h1 h2 hsep h

/-- **A chunk that does not complete the separator** suspends `read_until` again, or exceeds the
    limit. -/
theorem readUntil_send_none (h : find sep (b ++ c) = none) :
    (∃ s', (readUntil sep limit keepEnd [] : Generator _ _ _ _ (ReaderError ι × Bytes)).send s c =
        .yielded s' () ∧ s'.Has sep (b ++ c)) ∨
      (limit < (b ++ c).length + 1 - sep.length ∧
        (readUntil sep limit keepEnd [] : Generator _ _ _ _ (ReaderError ι × Bytes)).send s c =
          .raised (.limitOverrun (LimitOverrunError.init
            "Separator is not found, and chunk exceed the limit" (b ++ c)
              ((b ++ c).length + 1 - sep.length) sep), b ++ c)) := by
  cases s with
  | filling =>
    cases hs
    by_cases hc : c = []
    · subst hc; exact Or.inl ⟨.filling, by simp [readUntil], rfl⟩
    · rw [List.nil_append] at h
      simp only [readUntil, if_neg hc, List.nil_append]
      rcases readUntilLoop_none (Nat.zero_le _) (by simp) h (by omega) with h1 | h1
      · exact Or.inl ⟨_, h1, rfl, h, rfl⟩
      · exact Or.inr h1
  | searching buffer offset =>
    obtain ⟨rfl, hn, rfl⟩ := hs
    obtain ⟨h1, h2⟩ := offset_spec (c := c) hsep hn
    rcases readUntilLoop_none h1 h2 h (by rw [List.length_append]; omega) with h1 | h1
    · exact Or.inl ⟨_, h1, rfl, h, rfl⟩
    · exact Or.inr h1

end

end GeneratorStreamReader

end EasyNetwork
