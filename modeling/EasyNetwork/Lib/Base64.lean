/-
  Base64 over an alphabet of 64 bytes.

  * `Alphabet.encode`: three bytes become four characters, the last group is padded with `=`;
  * `Alphabet.decode`: the decoder that skips what is not in the alphabet and stops at the first
    padding that completes a group.

  Decoding inverts encoding (`decode_encode`), and the token is made of characters of the alphabet
  and of paddings (`mem_encode`).
-/
import Mathlib.Data.List.Basic
import Mathlib.Data.UInt

namespace Base64

/-- `=`. -/
def pad : UInt8 := 61

/-- The characters of the 64 sextets, and their values. -/
structure Alphabet where
  char : ℕ → UInt8
  value : UInt8 → Option ℕ
  value_char : ∀ {n}, n < 64 → value (char n) = some n
  value_pad : value pad = none

/-- Why a token is rejected. -/
inductive Error where
  /-- a group of one character -/
  | oneMore
  | incorrectPadding
  deriving DecidableEq, Repr

/-- The characters of a group that have been read; `left` are the bits that no byte has used. -/
inductive Quad where
  | start
  | one (left : ℕ)
  | two (left : ℕ)
  | three (left : ℕ)
  deriving DecidableEq, Repr

namespace Quad

/-- The number of characters read. -/
def pos : Quad → ℕ
  | start => 0
  | one _ => 1
  | two _ => 2
  | three _ => 3

/-- The next character of the group: the group, and the byte that is complete. -/
def push (x : ℕ) : Quad → Quad × List UInt8
  | start => (one x, [])
  | one left => (two (x % 16), [UInt8.ofNat (left * 4 + x / 16)])
  | two left => (three (x % 4), [UInt8.ofNat (left * 16 + x / 4)])
  | three left => (start, [UInt8.ofNat (left * 64 + x)])

end Quad

namespace Alphabet
variable (A : Alphabet)

/-- The token of a byte string. -/
def encode : List UInt8 → List UInt8
  | [] => []
  | [a] => [A.char (a.toNat / 4), A.char (a.toNat % 4 * 16), pad, pad]
  | [a, b] =>
    [A.char (a.toNat / 4), A.char (a.toNat % 4 * 16 + b.toNat / 16), A.char (b.toNat % 16 * 4), pad]
  | a :: b :: c :: rest =>
    A.char (a.toNat / 4) :: A.char (a.toNat % 4 * 16 + b.toNat / 16) ::
      A.char (b.toNat % 16 * 4 + c.toNat / 64) :: A.char (c.toNat % 64) :: encode rest

/-- The bytes of the characters, after those of the group `quad` and `pads` paddings. -/
def decodeFrom : List UInt8 → Quad → ℕ → Except Error (List UInt8)
  | [], quad, _ =>
    match quad.pos with
    | 0 => .ok []
    | 1 => .error .oneMore
    | _ => .error .incorrectPadding
  | c :: cs, quad, pads =>
    if c = pad then
      -- a padding before the third character of a group is ignored
      if 2 ≤ quad.pos then
        if 4 ≤ quad.pos + (pads + 1) then .ok [] else decodeFrom cs quad (pads + 1)
      else decodeFrom cs quad pads
    else
      match A.value c with
      | none => decodeFrom cs quad pads
      | some x => (decodeFrom cs (quad.push x).1 0).map ((quad.push x).2 ++ ·)

/-- The bytes of a token. -/
def decode (token : List UInt8) : Except Error (List UInt8) := A.decodeFrom token .start 0

/-- A byte of the tokens. -/
def IsTokenByte (c : UInt8) : Prop := c = pad ∨ ∃ n < 64, c = A.char n

variable {A}

theorem char_ne_pad {n : ℕ} (h : n < 64) : A.char n ≠ pad := by
  intro he
  have := A.value_char h
  rw [he, A.value_pad] at this
  cases this

/-! ## Round trip -/

theorem decodeFrom_char {n : ℕ} (h : n < 64) (cs : List UInt8) (quad : Quad) (pads : ℕ) :
    A.decodeFrom (A.char n :: cs) quad pads =
      (A.decodeFrom cs (quad.push n).1 0).map ((quad.push n).2 ++ ·) := by
  rw [decodeFrom, if_neg (char_ne_pad h), A.value_char h]

theorem ofNat_eq {a : UInt8} {n : ℕ} (h : n = a.toNat) : UInt8.ofNat n = a := by
  rw [h, UInt8.ofNat_toNat]

/-- **Decoding inverts encoding.** -/
theorem decode_encode (data : List UInt8) : A.decode (A.encode data) = .ok data := by
  unfold decode
  induction data using encode.induct with
  | case1 => rfl
  | case2 a =>
    have ha := a.toNat_lt
    rw [encode, decodeFrom_char (by omega), decodeFrom_char (by omega)]
    have h1 : UInt8.ofNat (a.toNat / 4 * 4 + a.toNat % 4 * 16 / 16) = a := ofNat_eq (by omega)
    simp only [Quad.push, h1]
    rfl
  | case3 a b =>
    have ha := a.toNat_lt
    have hb := b.toNat_lt
    rw [encode, decodeFrom_char (by omega), decodeFrom_char (by omega), decodeFrom_char (by omega)]
    have h1 : UInt8.ofNat (a.toNat / 4 * 4 + (a.toNat % 4 * 16 + b.toNat / 16) / 16) = a :=
      ofNat_eq (by omega)
    have h2 : UInt8.ofNat ((a.toNat % 4 * 16 + b.toNat / 16) % 16 * 16 + b.toNat % 16 * 4 / 4) = b :=
      ofNat_eq (by omega)
    simp only [Quad.push, h1, h2]
    rfl
  | case4 a b c rest ih =>
    have ha := a.toNat_lt
    have hb := b.toNat_lt
    have hc := c.toNat_lt
    rw [encode, decodeFrom_char (by omega), decodeFrom_char (by omega), decodeFrom_char (by omega),
      decodeFrom_char (by omega)]
    have h1 : UInt8.ofNat (a.toNat / 4 * 4 + (a.toNat % 4 * 16 + b.toNat / 16) / 16) = a :=
      ofNat_eq (by omega)
    have h2 : UInt8.ofNat ((a.toNat % 4 * 16 + b.toNat / 16) % 16 * 16 +
        (b.toNat % 16 * 4 + c.toNat / 64) / 4) = b := ofNat_eq (by omega)
    have h3 : UInt8.ofNat ((b.toNat % 16 * 4 + c.toNat / 64) % 4 * 64 + c.toNat % 64) = c :=
      ofNat_eq (by omega)
    simp only [Quad.push, h1, h2, h3, ih]
    rfl

/-! ## The characters of a token -/

theorem isTokenByte_char {n : ℕ} (h : n < 64) : A.IsTokenByte (A.char n) := Or.inr ⟨n, h, rfl⟩

theorem mem_encode {data : List UInt8} {c : UInt8} (h : c ∈ A.encode data) : A.IsTokenByte c := by
  induction data using encode.induct with
  | case1 => cases h
  | case2 a =>
    have ha := a.toNat_lt
    simp only [encode, List.mem_cons, List.not_mem_nil, or_false] at h
    rcases h with rfl | rfl | h
    · exact isTokenByte_char (by omega)
    · exact isTokenByte_char (by omega)
    · exact Or.inl (h.elim id id)
  | case3 a b =>
    have ha := a.toNat_lt
    have hb := b.toNat_lt
    simp only [encode, List.mem_cons, List.not_mem_nil, or_false] at h
    rcases h with rfl | rfl | rfl | h
    · exact isTokenByte_char (by omega)
    · exact isTokenByte_char (by omega)
    · exact isTokenByte_char (by omega)
    · exact Or.inl h
  | case4 a b c' rest ih =>
    have ha := a.toNat_lt
    have hb := b.toNat_lt
    have hc := c'.toNat_lt
    simp only [encode, List.mem_cons] at h
    rcases h with rfl | rfl | rfl | rfl | h
    · exact isTokenByte_char (by omega)
    · exact isTokenByte_char (by omega)
    · exact isTokenByte_char (by omega)
    · exact isTokenByte_char (by omega)
    · exact ih h

end Alphabet

/-! ## The standard alphabet -/

/-- `A`-`Z`, `a`-`z`, `0`-`9`, `+` and `/`. -/
def standardChar (n : ℕ) : UInt8 :=
  if n < 26 then UInt8.ofNat (65 + n)
  else if n < 52 then UInt8.ofNat (97 + (n - 26))
  else if n < 62 then UInt8.ofNat (48 + (n - 52))
  else if n = 62 then 43
  else 47

def standardValue (c : UInt8) : Option ℕ :=
  if 65 ≤ c ∧ c ≤ 90 then some (c.toNat - 65)
  else if 97 ≤ c ∧ c ≤ 122 then some (c.toNat - 97 + 26)
  else if 48 ≤ c ∧ c ≤ 57 then some (c.toNat - 48 + 52)
  else if c = 43 then some 62
  else if c = 47 then some 63
  else none

def standard : Alphabet where
  char := standardChar
  value := standardValue
  value_char := by
    intro n h
    have h64 : ∀ n : Fin 64, standardValue (standardChar n) = some n.val := by decide
    exact h64 ⟨n, h⟩
  value_pad := by decide

end Base64
