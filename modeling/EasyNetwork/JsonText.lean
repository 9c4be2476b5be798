/-
  Compact JSON texts, and the frames of their bytes.

  `CompactJson` says what the `json` encoder writes: scalars, strings with escapes, arrays and objects,
  without whitespaces between the tokens.  In a text, every enclosure is closed that is opened, so
  the automaton of a frame passes over it (`CompactJson.runs`), and stops at the end of a text that begins
  with an enclosure (`documentEnd_encode`).
-/
import EasyNetwork.Lib.Utf8
import EasyNetwork.JsonFrames

namespace EasyNetwork

/-- A character of a number, of `true`, `false`, `null`, `NaN` or `Infinity`. -/
def IsScalarChar (c : Char) : Prop := c.isAlphanum ∨ c = '+' ∨ c = '-' ∨ c = '.'

/-- What is between the quotes of a string. -/
inductive StringBody : List Char → Prop
  | nil : StringBody []
  | plain {c cs} : c ≠ '"' → c ≠ '\\' → 32 ≤ c.val.toNat → StringBody cs → StringBody (c :: cs)
  | escape {c cs} : c ∈ ['"', '\\', '/', 'b', 'f', 'n', 'r', 't', 'u'] → StringBody cs →
      StringBody ('\\' :: c :: cs)

/-- A string with its quotes. -/
def quoted (body : List Char) : List Char := '"' :: body ++ ['"']

/-- A member of an object. -/
def memberText (m : List Char × List Char) : List Char := quoted m.1 ++ ':' :: m.2

/-- A compact JSON text. -/
inductive CompactJson : List Char → Prop
  | scalar {cs} : cs ≠ [] → (∀ c ∈ cs, IsScalarChar c) → CompactJson cs
  | string {body} : StringBody body → CompactJson (quoted body)
  | array {items : List (List Char)} : (∀ item ∈ items, CompactJson item) →
      CompactJson ('[' :: [','].intercalate items ++ [']'])
  | object {members : List (List Char × List Char)} : (∀ m ∈ members, StringBody m.1) →
      (∀ m ∈ members, CompactJson m.2) →
      CompactJson ('{' :: [','].intercalate (members.map memberText) ++ ['}'])

namespace JsonParser

open Automaton Utf8

section
variable {o c : UInt8} {n : ℕ} {q : Bool}

/-- The bytes of a character other than `d` do not contain the byte of `d`. -/
theorem ne_of_mem_encodeChar {ch d : Char} (h : ch ≠ d) (hd : d.val.toNat < 128) :
    ∀ b ∈ encodeChar ch, b ≠ UInt8.ofNat d.val.toNat := by
  rintro b hb rfl
  have hn : (UInt8.ofNat d.val.toNat).toNat = d.val.toNat := by rw [UInt8.toNat_ofNat']; omega
  have := eq_of_mem_encodeChar hb (by omega)
  exact h (Char.ext (UInt32.toNat_inj.1 (this.trans hn)))

/-- The character of a scalar is an ASCII character, and none of the brackets, quotes and
    backslashes. -/
theorem toNat_scalarChar {ch : Char} (h : IsScalarChar ch) :
    43 ≤ ch.val.toNat ∧ ch.val.toNat ≤ 122 ∧ (ch.val.toNat < 91 ∨ 93 < ch.val.toNat) := by
  rcases h with h | rfl | rfl | rfl
  · delta Char.isAlphanum Char.isAlpha Char.isUpper Char.isLower Char.isDigit at h
    simp only [Bool.or_eq_true, Bool.and_eq_true, decide_eq_true_eq, ge_iff_le,
      UInt32.le_iff_toNat_le] at h
    have hn : ch.toNat = ch.val.toNat := rfl
    simp at h
    omega
  all_goals decide

/-- The bytes of a scalar are printable, and none of the brackets, quotes and backslashes. -/
theorem byte_scalarChar {ch : Char} (h : IsScalarChar ch) {b : UInt8} (hb : b ∈ encodeChar ch) :
    43 ≤ b.toNat ∧ b.toNat ≤ 122 ∧ (b.toNat < 91 ∨ 93 < b.toNat) := by
  have hn := toNat_scalarChar h
  rw [encodeChar_ascii (by omega), List.mem_singleton] at hb
  have hb' : b.toNat = ch.val.toNat := by rw [hb, UInt8.toNat_ofNat']; omega
  omega

/-- What is between quotes is passed over, in every kind of frame. -/
theorem runs_stringBody {cs : List Char} (h : StringBody cs) (hn : n ≠ 0) :
    Runs (FrameState.step o c) FrameState.closed ⟨false, true, n⟩ (encodeList cs) ⟨false, true, n⟩ := by
  have hs : FrameState.closed ⟨false, true, n⟩ = false := by simpa [FrameState.closed] using hn
  induction h with
  | nil => simp
  | @plain ch cs hq he _ _ ih =>
    refine Runs.append (runs_of_forall (fun b hb => ?_) hs) ih
    have h1 : b ≠ quoteByte := ne_of_mem_encodeChar hq (by decide) b hb
    have h2 : b ≠ escapeByte := ne_of_mem_encodeChar he (by decide) b hb
    simp [FrameState.step, h1, h2]
  | @escape ch cs hch _ ih =>
    have hascii : ch.val.toNat < 128 := by
      simp only [List.mem_cons, List.not_mem_nil, or_false] at hch
      rcases hch with rfl | rfl | rfl | rfl | rfl | rfl | rfl | rfl | rfl <;> decide
    have hb : encodeChar '\\' = [escapeByte] := encodeChar_ascii (by decide)
    rw [encodeList_cons, encodeList_cons, hb, encodeChar_ascii hascii]
    simp only [List.cons_append, List.nil_append, runs_cons, step_escape, step_escaped]
    exact ⟨hs, hs, ih⟩

/-- The characters are passed over by a frame that is opened by a bracket `o` and closed by `c`. -/
def Passes (o c : UInt8) (cs : List Char) : Prop :=
  ∀ n, n ≠ 0 → Runs (FrameState.step o c) FrameState.closed ⟨false, false, n⟩ (encodeList cs)
    ⟨false, false, n⟩

/-- The frames that are closed by another byte than the one that opens them. -/
def IsBracket (o c : UInt8) : Prop := (o = 123 ∧ c = 125) ∨ (o = 91 ∧ c = 93)

theorem passes_nil : Passes o c [] := fun n _ => by simp

theorem Passes.append {cs ds : List Char} (h1 : Passes o c cs) (h2 : Passes o c ds) :
    Passes o c (cs ++ ds) := by
  intro n hn
  rw [encodeList_append]
  exact (h1 n hn).append (h2 n hn)

theorem passes_intercalate {sep : List Char} (hsep : Passes o c sep) :
    ∀ {items : List (List Char)}, (∀ item ∈ items, Passes o c item) →
      Passes o c (sep.intercalate items)
  | [], _ => passes_nil
  | [item], h => by simpa [List.intercalate] using h item (by simp)
  | item :: item' :: items, h => by
    have ih := passes_intercalate hsep fun i hi => h i (List.mem_cons_of_mem item hi)
    have := ((h item (by simp)).append hsep).append ih
    simpa [List.intercalate] using this

theorem passes_of_forall {cs : List Char}
    (h : ∀ ch ∈ cs, ∀ b ∈ encodeChar ch, b ≠ escapeByte ∧ isToken o c b = false) : Passes o c cs := by
  intro n hn
  refine runs_of_forall (fun b hb => ?_) (by simpa [FrameState.closed] using hn)
  obtain ⟨ch, hch, hb⟩ := List.mem_flatMap.1 hb
  exact step_of_not_isToken (h ch hch b hb).1 (h ch hch b hb).2

variable (hoc : IsBracket o c)
include hoc

theorem passes_punctuation {ch : Char} (h : ch = ',' ∨ ch = ':') : Passes o c [ch] := by
  refine passes_of_forall fun ch' hch b hb => ?_
  rw [List.mem_singleton] at hch
  subst hch
  rcases h with rfl | rfl
  all_goals
    rw [encodeChar_ascii (by decide), List.mem_singleton] at hb
    subst hb
    rcases hoc with ⟨rfl, rfl⟩ | ⟨rfl, rfl⟩ <;> decide

theorem passes_scalar {cs : List Char} (h : ∀ ch ∈ cs, IsScalarChar ch) : Passes o c cs := by
  refine passes_of_forall fun ch hch b hb => ?_
  obtain ⟨h1, h2, h3⟩ := byte_scalarChar (h ch hch) hb
  have hne : ∀ d : UInt8, d.toNat < 43 ∨ 122 < d.toNat ∨ (91 ≤ d.toNat ∧ d.toNat ≤ 93) → b ≠ d := by
    rintro d hd rfl; omega
  simp only [isToken, decide_eq_false_iff_not, not_or]
  rcases hoc with ⟨rfl, rfl⟩ | ⟨rfl, rfl⟩ <;>
    exact ⟨hne _ (by decide), hne _ (by decide), hne _ (by decide), hne _ (by decide)⟩

theorem passes_quoted {body : List Char} (h : StringBody body) : Passes o c (quoted body) := by
  intro n hn
  have hs : FrameState.closed ⟨false, true, n⟩ = false := by simpa [FrameState.closed] using hn
  have hs' : FrameState.closed ⟨false, false, n⟩ = false := by simpa [FrameState.closed] using hn
  have hquote : encodeChar '"' = [quoteByte] := encodeChar_ascii (by decide)
  have h1 : (⟨false, false, n⟩ : FrameState).step o c quoteByte = ⟨false, true, n⟩ := by
    rcases hoc with ⟨rfl, rfl⟩ | ⟨rfl, rfl⟩ <;> rfl
  have h2 : (⟨false, true, n⟩ : FrameState).step o c quoteByte = ⟨false, false, n⟩ := by
    rcases hoc with ⟨rfl, rfl⟩ | ⟨rfl, rfl⟩ <;> rfl
  have hbody := runs_stringBody (o := o) (c := c) h hn
  have hend : Runs (FrameState.step o c) FrameState.closed ⟨false, true, n⟩ [quoteByte]
      ⟨false, false, n⟩ := by
    simp [h2, hs']
  simp only [quoted, List.cons_append, encodeList_cons, encodeList_append, encodeList_nil, hquote,
    List.append_nil, List.nil_append, runs_cons, h1]
  exact ⟨hs, hbody.append hend⟩

/-- An array or an object is passed over with its brackets, of either kind. -/
theorem passes_bracketed {open_ close : Char} {mid : List Char}
    (hbr : (open_ = '{' ∧ close = '}') ∨ (open_ = '[' ∧ close = ']')) (h : Passes o c mid) :
    Passes o c (open_ :: mid ++ [close]) := by
  intro n hn
  have hdepth : ∃ m, m ≠ 0 ∧
      (⟨false, false, n⟩ : FrameState).step o c (UInt8.ofNat open_.val.toNat) = ⟨false, false, m⟩ ∧
      (⟨false, false, m⟩ : FrameState).step o c (UInt8.ofNat close.val.toNat) =
        ⟨false, false, n⟩ := by
    rcases hoc with ⟨rfl, rfl⟩ | ⟨rfl, rfl⟩ <;> rcases hbr with ⟨rfl, rfl⟩ | ⟨rfl, rfl⟩
    · exact ⟨n + 1, Nat.succ_ne_zero n, rfl, rfl⟩
    · exact ⟨n, hn, rfl, rfl⟩
    · exact ⟨n, hn, rfl, rfl⟩
    · exact ⟨n + 1, Nat.succ_ne_zero n, rfl, rfl⟩
  obtain ⟨m, hm, h1, h2⟩ := hdepth
  have hopen : encodeChar open_ = [UInt8.ofNat open_.val.toNat] :=
    encodeChar_ascii (by rcases hbr with ⟨rfl, -⟩ | ⟨rfl, -⟩ <;> decide)
  have hclose : encodeChar close = [UInt8.ofNat close.val.toNat] :=
    encodeChar_ascii (by rcases hbr with ⟨-, rfl⟩ | ⟨-, rfl⟩ <;> decide)
  have hm' : FrameState.closed ⟨false, false, m⟩ = false := by simpa [FrameState.closed] using hm
  have hn' : FrameState.closed ⟨false, false, n⟩ = false := by simpa [FrameState.closed] using hn
  simp only [List.cons_append, encodeList_cons, encodeList_append, encodeList_nil, hopen, hclose,
    List.append_nil, List.nil_append, runs_cons, h1]
  exact ⟨hm', (h m hm).append (runs_cons.2 ⟨by rw [h2]; exact hn', by rw [h2]; simp⟩)⟩

theorem passes_members {members : List (List Char × List Char)}
    (hkey : ∀ m ∈ members, StringBody m.1) (hvalue : ∀ m ∈ members, Passes o c m.2) :
    Passes o c ([','].intercalate (members.map memberText)) := by
  refine passes_intercalate (passes_punctuation hoc (.inl rfl)) fun item hitem => ?_
  obtain ⟨m, hm, rfl⟩ := List.mem_map.1 hitem
  exact (passes_quoted hoc (hkey m hm)).append
    ((passes_punctuation hoc (.inr rfl)).append (hvalue m hm))

/-- **Every enclosure of a text that is opened is closed.** -/
theorem passes_of_compactJson {cs : List Char} (h : CompactJson cs) : Passes o c cs := by
  induction h with
  | scalar _ hcs => exact passes_scalar hoc hcs
  | string hbody => exact passes_quoted hoc hbody
  | array _ ih =>
    exact passes_bracketed hoc (Or.inr ⟨rfl, rfl⟩)
      (passes_intercalate (passes_punctuation hoc (.inl rfl)) ih)
  | object hkey _ ih => exact passes_bracketed hoc (Or.inl ⟨rfl, rfl⟩) (passes_members hoc hkey ih)

/-- The bracket that closes the frame ends it. -/
theorem haltsAt_bracket {mid : List Char} (h : Passes o c mid) (t : Bytes) :
    haltsAt (FrameState.step o c) FrameState.closed (.opened o) (encodeList mid ++ c :: t) =
      some ((encodeList mid).length + 1) := by
  have ho : FrameState.opened o = ⟨false, false, 1⟩ := by
    rcases hoc with ⟨rfl, rfl⟩ | ⟨rfl, rfl⟩ <;> rfl
  have hc : FrameState.closed ((⟨false, false, 1⟩ : FrameState).step o c c) = true := by
    rcases hoc with ⟨rfl, rfl⟩ | ⟨rfl, rfl⟩ <;> rfl
  rw [ho, haltsAt_append (h 1 Nat.one_ne_zero)]
  simp [haltsAt, hc]

omit hoc in
/-- The quote that closes a string ends it. -/
theorem haltsAt_quote {body : List Char} (h : StringBody body) (t : Bytes) :
    haltsAt (FrameState.step quoteByte quoteByte) FrameState.closed (.opened quoteByte)
        (encodeList body ++ quoteByte :: t) = some ((encodeList body).length + 1) := by
  have hq : FrameState.closed ((⟨false, true, 1⟩ : FrameState).step quoteByte quoteByte quoteByte) =
      true := rfl
  have ho : FrameState.opened quoteByte = ⟨false, true, 1⟩ := rfl
  rw [ho, haltsAt_append (runs_stringBody h Nat.one_ne_zero)]
  simp [haltsAt, hq]

end

/-- A frame that is closed is a document. -/
theorem documentEnd_frame {o c : UInt8} {x : Bytes} (ho : enclosureBytes o = some c)
    (h : ∀ t, haltsAt (FrameState.step o c) FrameState.closed (.opened o) (x ++ c :: t) =
      some (x.length + 1)) (t : Bytes) :
    documentEnd (o :: (x ++ [c]) ++ t) = some (o :: (x ++ [c])).length := by
  have happ : o :: (x ++ [c]) ++ t = o :: (x ++ c :: t) := by simp
  rw [happ]
  simp [documentEnd, ho, h t, Nat.add_comm]

/-- A plain value before a newline is a document. -/
theorem documentEnd_plain {b : UInt8} {x : Bytes} (hb : enclosureBytes b = none)
    (h : ∀ b' ∈ b :: x, isNonPrintable b' = false) (t : Bytes) :
    documentEnd (b :: x ++ 10 :: t) = some (b :: x).length := by
  have hnone : (b :: x).findIdx? isNonPrintable = none := List.findIdx?_eq_none_iff.2 h
  have hnl : (10 :: t).findIdx? isNonPrintable = some 0 := by
    rw [List.findIdx?_cons, if_pos (by decide)]
  rw [List.cons_append, documentEnd, hb, ← List.cons_append]
  simp only [List.findIdx?_append, hnone, hnl, Option.none_or, Option.map_some, Nat.zero_add]

/-- **A text ends where it ends.**  A text that begins with an enclosure is a document, whatever
    follows; a scalar is one when a newline follows. -/
theorem documentEnd_encode {cs : List Char} (h : CompactJson cs) :
    ∃ b x, encodeList cs = b :: x ∧ isWhitespace b = false ∧
      ((enclosureBytes b).isSome → ∀ t,
        documentEnd (encodeList cs ++ t) = some (encodeList cs).length) ∧
      (enclosureBytes b = none → ∀ t,
        documentEnd (encodeList cs ++ 10 :: t) = some (encodeList cs).length) := by
  cases h with
  | @scalar _ hne hcs =>
    have hbyte : ∀ b ∈ encodeList cs,
        43 ≤ b.toNat ∧ b.toNat ≤ 122 ∧ (b.toNat < 91 ∨ 93 < b.toNat) := by
      intro b hb
      obtain ⟨ch, hch, hb⟩ := List.mem_flatMap.1 hb
      exact byte_scalarChar (hcs ch hch) hb
    have hcons : ∃ b x, encodeList cs = b :: x := by
      obtain ⟨ch, cs, rfl⟩ := List.exists_cons_of_ne_nil hne
      have := toNat_scalarChar (hcs ch (by simp))
      rw [encodeList_cons, encodeChar_ascii (by omega)]
      exact ⟨_, _, rfl⟩
    obtain ⟨b, x, hbx⟩ := hcons
    rw [hbx] at hbyte ⊢
    obtain ⟨h1, h2, h3⟩ := hbyte b (by simp)
    have hnone : enclosureBytes b = none := by
      unfold enclosureBytes
      split <;> first | rfl | (exfalso; revert h1 h2 h3; decide)
    refine ⟨b, x, rfl, ?_, fun hs => ?_, fun _ => documentEnd_plain hnone fun b' hb' => ?_⟩
    · simp only [isWhitespace, decide_eq_false_iff_not]
      rintro (rfl | rfl | rfl | rfl) <;> revert h1 <;> decide
    · rw [hnone] at hs; cases hs
    · have := hbyte b' hb'
      simp only [isNonPrintable, decide_eq_false_iff_not, not_not, UInt8.le_iff_toNat_le]
      constructor
      · exact le_trans (by decide) this.1
      · exact le_trans this.2.1 (by decide)
  | @string body hbody =>
    have henc : encodeList (quoted body) = quoteByte :: (encodeList body ++ [quoteByte]) := by
      have hquote : encodeChar '"' = [quoteByte] := encodeChar_ascii (by decide)
      simp [quoted, hquote]
    rw [henc]
    exact ⟨_, _, rfl, rfl, fun _ => documentEnd_frame rfl (haltsAt_quote hbody), by rintro ⟨⟩⟩
  | @array items hitems =>
    have hoc : IsBracket 91 93 := Or.inr ⟨rfl, rfl⟩
    have hpass : Passes 91 93 ([','].intercalate items) :=
      passes_intercalate (passes_punctuation hoc (.inl rfl)) fun item hi =>
        passes_of_compactJson hoc (hitems item hi)
    have henc : encodeList ('[' :: [','].intercalate items ++ [']']) =
        91 :: (encodeList ([','].intercalate items) ++ [93]) := by
      have h1 : encodeChar '[' = [91] := encodeChar_ascii (by decide)
      have h2 : encodeChar ']' = [93] := encodeChar_ascii (by decide)
      simp [h1, h2]
    rw [henc]
    exact ⟨_, _, rfl, rfl, fun _ => documentEnd_frame rfl (haltsAt_bracket hoc hpass), by rintro ⟨⟩⟩
  | @object members hkey hvalue =>
    have hoc : IsBracket 123 125 := Or.inl ⟨rfl, rfl⟩
    have hpass : Passes 123 125 ([','].intercalate (members.map memberText)) :=
      passes_members hoc hkey fun m hm => passes_of_compactJson hoc (hvalue m hm)
    have henc : encodeList ('{' :: [','].intercalate (members.map memberText) ++ ['}']) =
        123 :: (encodeList ([','].intercalate (members.map memberText)) ++ [125]) := by
      have h1 : encodeChar '{' = [123] := encodeChar_ascii (by decide)
      have h2 : encodeChar '}' = [125] := encodeChar_ascii (by decide)
      simp [h1, h2]
    rw [henc]
    exact ⟨_, _, rfl, rfl, fun _ => documentEnd_frame rfl (haltsAt_bracket hoc hpass), by rintro ⟨⟩⟩

end JsonParser

end EasyNetwork
