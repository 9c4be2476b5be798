/-
  The exceptions of the parsing layer (`exceptions.py`).

  An exception is modelled by what its handlers read of it.  The unused trailing
  data is kept apart from the cause: two parsers that fail for the same cause may
  have received a different amount of data.

  `LimitOverrunError` computes the data it hands on (`LimitOverrunError.remainingData`): it
  skips the separator if this is what comes first, and otherwise keeps the bytes that may begin
  a separator (`remainingData_eq_overlap`).
-/
import EasyNetwork.Lib.Search

namespace EasyNetwork

/-- A byte string (`bytes`, `bytearray`, or what a `memoryview` shows). -/
abbrev Bytes := List UInt8

/-- `DeserializeError`; `ι` is the type of the additional error data. -/
structure DeserializeError (ι : Type) where
  message : String
  errorInfo : Option ι
  deriving DecidableEq, Repr

/-- `PacketConversionError`. -/
structure PacketConversionError (ι : Type) where
  message : String
  errorInfo : Option ι
  deriving DecidableEq, Repr

/-- Why a packet could not be given: an `IncrementalDeserializeError`, its subclass
    `LimitOverrunError`, or a `PacketConversionError`. -/
inductive ParseCause (ι : Type) where
  | deserialize (message : String) (errorInfo : Option ι)
  | limitOverrun (message : String) (consumed : ℕ)
  | conversion (message : String) (errorInfo : Option ι)
  deriving DecidableEq, Repr

/-- `IncrementalDeserializeError`, with its `remaining_data`. -/
structure IncrementalDeserializeError (ι : Type) where
  cause : ParseCause ι
  remainingData : Bytes
  deriving DecidableEq, Repr

/-- `StreamProtocolParseError`, with its `remaining_data`. -/
structure StreamProtocolParseError (ι : Type) where
  error : ParseCause ι
  remainingData : Bytes
  deriving DecidableEq, Repr

/-- What a serializer's generator may raise. -/
inductive SerializerError (ι : Type) where
  | incremental (e : IncrementalDeserializeError ι)
  /-- any other exception, by its text -/
  | other (message : String)
  deriving DecidableEq, Repr

/-- What a protocol's generator may raise. -/
inductive ProtocolError (ι : Type) where
  | parse (e : StreamProtocolParseError ι)
  | other (message : String)
  deriving DecidableEq, Repr

namespace LimitOverrunError

/-- `while remaining_data.nbytes and remaining_data[:seplen] != separator[: remaining_data.nbytes]`:
    drop the first byte. -/
def stripLoop (separator : Bytes) : Bytes → Bytes
  | [] => []
  | x :: xs =>
    if (x :: xs).take separator.length ≠ separator.take (x :: xs).length then stripLoop separator xs
    else x :: xs

/-- The `remaining_data` that `LimitOverrunError.__init__` computes. -/
def remainingData (buffer : Bytes) (consumed : ℕ) (separator : Bytes) : Bytes :=
  let remaining := buffer.drop consumed
  let seplen := separator.length
  if seplen ≠ 0 then
    if remaining.take seplen = separator then remaining.drop seplen
    else stripLoop separator remaining
  else remaining

/-- `LimitOverrunError(message, buffer, consumed, separator)`. -/
def init {ι : Type} (message : String) (buffer : Bytes) (consumed : ℕ) (separator : Bytes) :
    IncrementalDeserializeError ι :=
  ⟨.limitOverrun message consumed, remainingData buffer consumed separator⟩

theorem stripLoop_suffix (sep : Bytes) : ∀ b, stripLoop sep b <:+ b
  | [] => List.suffix_rfl
  | x :: xs => by
    unfold stripLoop; split_ifs
    · exact (stripLoop_suffix sep xs).trans (List.suffix_cons x xs)
    · exact List.suffix_rfl

/-- The data handed on is a suffix of the buffer, after the consumed bytes. -/
theorem remainingData_suffix (buffer : Bytes) (consumed : ℕ) (sep : Bytes) :
    remainingData buffer consumed sep <:+ buffer.drop consumed := by
  unfold remainingData
  simp only
  split_ifs
  · exact List.drop_suffix _ _
  · exact stripLoop_suffix _ _
  · exact List.suffix_rfl

@[simp] theorem remainingData_nil (buffer : Bytes) (consumed : ℕ) :
    remainingData buffer consumed [] = buffer.drop consumed := rfl

/-- On at most `len(separator)` bytes that are not the separator, the loop keeps the overlap. -/
theorem stripLoop_eq_overlap {sep : Bytes} :
    ∀ {b : Bytes}, b.length ≤ sep.length → b ≠ sep → stripLoop sep b = Search.overlap sep b
  | [], _, _ => rfl
  | x :: xs, hl, hne => by
    have hpre : (x :: xs).take sep.length = sep.take (x :: xs).length ↔ x :: xs <+: sep := by
      rw [List.take_of_length_le hl, List.prefix_iff_eq_take]
    have hlen : x :: xs <+: sep → (x :: xs).length < sep.length := fun h =>
      lt_of_le_of_ne hl fun he => hne (h.eq_of_length he)
    unfold stripLoop Search.overlap
    by_cases h : x :: xs <+: sep
    · rw [if_neg (not_not.2 (hpre.2 h)), if_pos ⟨hlen h, h⟩]
    · rw [if_pos (fun he => h (hpre.1 he)), if_neg fun he => h he.2]
      exact stripLoop_eq_overlap (by simp only [List.length_cons] at hl; omega)
        fun he => by rw [← he] at hl; simp at hl

/-- **What a `LimitOverrunError` keeps** of at most `len(separator)` unconsumed bytes: the longest
    end that may begin a separator, and nothing if they are the separator. -/
theorem remainingData_eq_overlap {buffer sep : Bytes} {consumed : ℕ} (hsep : sep ≠ [])
    (hl : buffer.length ≤ consumed + sep.length) :
    remainingData buffer consumed sep =
      if buffer.drop consumed = sep then [] else Search.overlap sep (buffer.drop consumed) := by
  have hlen : (buffer.drop consumed).length ≤ sep.length := by rw [List.length_drop]; omega
  unfold remainingData
  simp only [List.take_of_length_le hlen]
  rw [if_pos (by simpa using hsep)]
  split_ifs with h
  · exact List.drop_eq_nil_of_le hlen
  · exact stripLoop_eq_overlap hlen h

/-- When the consumed bytes end where the separator begins, the separator is skipped. -/
theorem remainingData_of_occursAt {buffer sep : Bytes} {consumed : ℕ} (hsep : sep ≠ [])
    (h : Search.OccursAt sep buffer consumed) :
    remainingData buffer consumed sep = buffer.drop (consumed + sep.length) := by
  unfold remainingData
  simp only
  rw [if_pos (by simpa using hsep), if_pos (List.prefix_iff_eq_take.1 h).symm, List.drop_drop]

/-- When the bytes that cannot begin a separator have been consumed, those that may are kept. -/
theorem remainingData_of_tail {buffer sep : Bytes} (hsep : sep ≠ [])
    (hl : sep.length ≤ buffer.length + 1) :
    remainingData buffer (buffer.length + 1 - sep.length) sep = Search.overlap sep buffer := by
  have hpos := List.length_pos_iff.2 hsep
  have hlen : (buffer.drop (buffer.length + 1 - sep.length)).length = sep.length - 1 := by
    rw [List.length_drop]; omega
  rw [remainingData_eq_overlap hsep (by omega), if_neg fun he => by rw [he] at hlen; omega,
    Search.overlap_drop (by omega)]

end LimitOverrunError

end EasyNetwork
