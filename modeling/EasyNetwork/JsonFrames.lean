/-
  What `__raw_parse_impl` computes, wherever its input is cut.

  `documentEnd` says where a document ends in one pass over its bytes; in a frame this is an automaton
  (`FrameState.step`) that skips a backslash with the byte after it, knows whether it is in a string,
  and counts one kind of enclosures.  The matches of the regular expression, resumed before
  the last backslashes at every read, follow the automaton (`matchLoop_finditer`, `searchFrame_eq`).

  `send_spec`: a suspended `__raw_parse_impl` that has received `d` (`RawParse.Has`) ends at the end of
  the document of what it has received then, or at the limit, or suspends again.
-/
import Mathlib.Data.List.DropRight
import EasyNetwork.Lib.Automaton
import EasyNetwork.JsonParser

namespace EasyNetwork.JsonParser

open Coroutine Automaton

/-! ## The automaton of a frame -/

/-- The state of the one-pass reader of a frame. -/
structure FrameState where
  escaped : Bool
  inString : Bool
  depth : ℕ
  deriving DecidableEq, Repr

/-- One byte of a frame. -/
def FrameState.step (openEnclosure closeEnclosure : UInt8) (s : FrameState) (b : UInt8) : FrameState :=
  if s.escaped then { s with escaped := false }
  else if b = escapeByte then { s with escaped := true }
  else if b ≠ quoteByte ∧ s.inString then s
  else
    ⟨false, if b = quoteByte then !s.inString else s.inString,
      if b = closeEnclosure then s.depth - 1
      else if b = openEnclosure then s.depth + 1
      else s.depth⟩

/-- The frame is closed. -/
def FrameState.closed (s : FrameState) : Bool := s.depth = 0

/-- The state after the byte that opens a frame. -/
def FrameState.opened (openEnclosure : UInt8) : FrameState := ⟨false, openEnclosure = quoteByte, 1⟩

/-- What the search for the end of the frame ends with, for the automaton. -/
def frameSearch (openEnclosure closeEnclosure : UInt8) (pos : ℕ) (s : FrameState) (l : Bytes) :
    FrameSearch :=
  let step := FrameState.step openEnclosure closeEnclosure
  match haltsAt step FrameState.closed s l with
  | some k => .closed (pos + k)
  | none => .unclosed (l.foldl step s).depth (l.foldl step s).inString

/-- The enclosures are neither backslashes nor printed otherwise. -/
theorem enclosure_ne_escape {o c : UInt8} (h : enclosureBytes o = some c) :
    o ≠ escapeByte ∧ c ≠ escapeByte := by
  unfold enclosureBytes at h
  split at h <;> cases h <;> decide

section
variable {o c b : UInt8} {l t : Bytes} {pos n : ℕ} {q e : Bool} {s s' : FrameState}

theorem frameSearch_cons : frameSearch o c pos s (b :: l) =
    if (s.step o c b).depth = 0 then .closed (pos + 1)
    else frameSearch o c (pos + 1) (s.step o c b) l := by
  unfold frameSearch
  simp only [haltsAt, FrameState.closed, decide_eq_true_eq, List.foldl_cons]
  split_ifs with h
  · rfl
  · rcases haltsAt (FrameState.step o c) FrameState.closed (s.step o c b) l with _ | k
    · rfl
    · simp; omega

/-- The search goes on where an unfinished one ended. -/
theorem frameSearch_append (h : Runs (FrameState.step o c) FrameState.closed s l s') :
    frameSearch o c pos s (l ++ t) = frameSearch o c (pos + l.length) s' t := by
  unfold frameSearch
  simp only [haltsAt_append h, List.foldl_append, h.2]
  rcases haltsAt (FrameState.step o c) FrameState.closed s' t with _ | k
  · rfl
  · simp; omega

theorem step_escape : (⟨false, q, n⟩ : FrameState).step o c escapeByte = ⟨true, q, n⟩ := by
  simp [FrameState.step]

theorem step_escaped : (⟨true, q, n⟩ : FrameState).step o c b = ⟨false, q, n⟩ := by
  simp [FrameState.step]

/-- A byte outside of the pattern changes nothing. -/
theorem step_of_not_isToken (hb : b ≠ escapeByte) (h : isToken o c b = false) :
    (⟨false, q, n⟩ : FrameState).step o c b = ⟨false, q, n⟩ := by
  simp only [isToken, decide_eq_false_iff_not, not_or] at h
  obtain ⟨h1, h2, h3⟩ := h
  cases q <;> simp [FrameState.step, hb, h1, h2, h3]

/-- Only a backslash escapes. -/
theorem step_escaped_false (hb : b ≠ escapeByte) : (s.step o c b).escaped = false := by
  unfold FrameState.step
  rw [if_neg hb]
  split
  · rfl
  · next h =>
    split
    · simpa using h
    · rfl

theorem eta_of_escaped (h : s.escaped = false) : ⟨false, s.inString, s.depth⟩ = s := by rw [← h]

/-- The loop treats a match that is not an escape sequence like the automaton treats the byte. -/
theorem matchLoop_cons (hb : b ≠ escapeByte) (hn : n ≠ 0) (ms : List EnclosureMatch) :
    matchLoop o c (⟨b, pos⟩ :: ms) n q =
      if ((⟨false, q, n⟩ : FrameState).step o c b).depth = 0 then .closed pos
      else matchLoop o c ms ((⟨false, q, n⟩ : FrameState).step o c b).depth
        ((⟨false, q, n⟩ : FrameState).step o c b).inString := by
  by_cases hq : b ≠ quoteByte ∧ q = true
  · simp [matchLoop, FrameState.step, hb, hq.1, hq.2, hn]
  · simp [matchLoop, FrameState.step, hb, hq]

/-- The loop skips an escape sequence. -/
theorem matchLoop_escape (ho : o ≠ escapeByte) (hc : c ≠ escapeByte) (hn : n ≠ 0)
    (ms : List EnclosureMatch) :
    matchLoop o c (⟨escapeByte, pos⟩ :: ms) n q = matchLoop o c ms n q := by
  have hq : escapeByte ≠ quoteByte := by decide
  cases q <;> simp [matchLoop, hq, ho.symm, hc.symm, hn]

/-- **The matches of the regular expression follow the automaton.** -/
theorem matchLoop_finditer (hoc : enclosureBytes o = some c) (l : Bytes) (pos n : ℕ) (q : Bool)
    (hn : n ≠ 0) : matchLoop o c (finditer o c pos l) n q = frameSearch o c pos ⟨false, q, n⟩ l := by
  obtain ⟨ho, hc⟩ := enclosure_ne_escape hoc
  -- a byte that is not escaped is a match, or changes nothing
  have hbyte : ∀ b l pos n q, b ≠ escapeByte → n ≠ 0 →
      (∀ n' q', n' ≠ 0 → matchLoop o c (finditer o c (pos + 1) l) n' q' =
        frameSearch o c (pos + 1) ⟨false, q', n'⟩ l) →
      matchLoop o c (if isToken o c b then ⟨b, pos + 1⟩ :: finditer o c (pos + 1) l
        else finditer o c (pos + 1) l) n q = frameSearch o c pos ⟨false, q, n⟩ (b :: l) := by
    intro b l pos n q hb hn ih
    rw [frameSearch_cons]
    split_ifs with h1 h2 h2
    · rw [matchLoop_cons hb hn, if_pos h2]
    · rw [matchLoop_cons hb hn, if_neg h2, ih _ _ h2, eta_of_escaped (step_escaped_false hb)]
    · rw [step_of_not_isToken hb (by simpa using h1)] at h2; exact absurd h2 hn
    · rw [step_of_not_isToken hb (by simpa using h1)]; exact ih n q hn
  induction l using List.twoStepInduction generalizing pos n q with
  | nil => rfl
  | singleton b =>
    by_cases hb : b = escapeByte
    · subst hb
      rw [frameSearch_cons, step_escape, if_neg hn]; rfl
    · have := hbyte b [] pos n q hb hn fun _ _ _ => rfl
      simpa [finditer, hb] using this
  | cons_cons b b' l ih1 ih2 =>
    by_cases hb : b = escapeByte
    · subst hb
      rw [frameSearch_cons, step_escape, if_neg hn, frameSearch_cons, step_escaped, if_neg hn,
        ← ih1 _ _ _ hn]
      simp only [finditer, if_true]
      exact matchLoop_escape ho hc hn _
    · have := hbyte b (b' :: l) pos n q hb hn fun n' q' hn' => ih2 b' (pos + 1) n' q' hn'
      simpa [finditer, hb] using this

end

/-! ## Resuming before the last backslashes -/

section
variable {o c : UInt8} {l t x y : Bytes} {n : ℕ} {q : Bool} {s s' : FrameState}

/-- The bytes before index `rewind` do not end with a backslash. -/
theorem rewind_spec (ho : o ≠ escapeByte) (x t : Bytes) :
    ∃ y m, x = y ++ List.replicate m escapeByte ∧ (∀ b, y.getLast? = some b → b ≠ escapeByte) ∧
      rewind (o :: x ++ t) (x.length + 1) = y.length + 1 := by
  induction x using List.reverseRecOn generalizing t with
  | nil => exact ⟨[], 0, rfl, by simp, by simp [rewind, ho]⟩
  | append_singleton x b ih =>
    have hget : (o :: (x ++ [b]) ++ t)[x.length + 1]? = some b := by simp
    rw [List.length_append, List.length_singleton, rewind, hget]
    by_cases hb : b = escapeByte
    · subst hb
      obtain ⟨y, m, h1, h2, h3⟩ := ih (escapeByte :: t)
      refine ⟨y, m + 1, ?_, h2, ?_⟩
      · rw [List.replicate_succ', ← List.append_assoc, ← h1]
      · rw [if_pos rfl, ← h3]; simp
    · refine ⟨x ++ [b], 0, by simp, ?_, ?_⟩
      · intro b' hb'
        rw [List.getLast?_concat] at hb'; cases hb'; exact hb
      · rw [if_neg (by simpa using hb)]; simp

/-- Backslashes change nothing but the escaping. -/
theorem foldl_replicate_escape (m : ℕ) (s : FrameState) :
    ((List.replicate m escapeByte).foldl (FrameState.step o c) s).inString = s.inString ∧
      ((List.replicate m escapeByte).foldl (FrameState.step o c) s).depth = s.depth := by
  induction m generalizing s with
  | zero => exact ⟨rfl, rfl⟩
  | succ m ih =>
    rw [List.replicate_succ, List.foldl_cons]
    obtain ⟨h1, h2⟩ := ih (s.step o c escapeByte)
    have hs : (s.step o c escapeByte).inString = s.inString ∧
        (s.step o c escapeByte).depth = s.depth := by
      unfold FrameState.step; split_ifs <;> simp_all
    exact ⟨h1.trans hs.1, h2.trans hs.2⟩

/-- Before the last backslashes, the automaton was in the same state but not escaped. -/
theorem runs_before_escapes (hs : s.escaped = false) {m : ℕ}
    (hy : ∀ b, y.getLast? = some b → b ≠ escapeByte)
    (h : Runs (FrameState.step o c) FrameState.closed s (y ++ List.replicate m escapeByte) s') :
    Runs (FrameState.step o c) FrameState.closed s y ⟨false, s'.inString, s'.depth⟩ := by
  obtain ⟨mid, h1, h2⟩ := runs_append.1 h
  obtain ⟨h3, h4⟩ := foldl_replicate_escape (o := o) (c := c) m mid
  rw [h2.2] at h3 h4
  have hmid : mid.escaped = false := by
    rw [← h1.2]
    rcases List.eq_nil_or_concat y with rfl | ⟨y', b, rfl⟩
    · exact hs
    · rw [List.concat_eq_append, List.foldl_concat]
      exact step_escaped_false (hy b (by simp))
  rw [h3, h4, eta_of_escaped hmid]
  exact h1

/-- **Resumed before the last backslashes, the search goes on as if it had not been cut.** -/
theorem matchLoop_resumed (hoc : enclosureBytes o = some c)
    (h : Runs (FrameState.step o c) FrameState.closed (.opened o) x s') (t u : Bytes) :
    matchLoop o c (finditer o c (rewind (o :: x ++ u) (x.length + 1))
        ((o :: x ++ t).drop (rewind (o :: x ++ u) (x.length + 1)))) s'.depth s'.inString =
      frameSearch o c 1 (.opened o) (x ++ t) := by
  obtain ⟨y, m, rfl, hy, hr⟩ := rewind_spec (enclosure_ne_escape hoc).1 x u
  have hbefore := runs_before_escapes rfl hy h
  have hn : s'.depth ≠ 0 := by
    have := h.not_halted rfl
    simpa [FrameState.closed] using this
  rw [hr, matchLoop_finditer hoc _ _ _ _ hn, List.append_assoc, frameSearch_append hbefore]
  congr 1
  · omega
  · simp

end

/-! ## What a read does -/

/-- The length of the document at the beginning of the bytes, once its end is known. -/
def documentEnd : Bytes → Option ℕ
  | [] => none
  | o :: x =>
    match enclosureBytes o with
    | none => (o :: x).findIdx? isNonPrintable
    | some c => (haltsAt (FrameState.step o c) FrameState.closed (.opened o) x).map (1 + ·)

/-- The received bytes without the whitespaces before the document. -/
def strip (b : Bytes) : Bytes := b.dropWhile isWhitespace

/-- Where `__raw_parse_impl` is suspended when it has received `d`. -/
def suspended : Bytes → RawParse
  | [] => .skipping
  | o :: x =>
    match enclosureBytes o with
    | none => .plain (x.length + 1)
    | some c =>
      let s := x.foldl (FrameState.step o c) (.opened o)
      .framed o c (x.length + 1) s.depth s.inString

section
variable {ι : Type} (limit : ℕ)

/-- What `__raw_parse_impl` does with `d` at the beginning of the buffer. -/
def outcome (buffer d : Bytes) : Result ι :=
  match documentEnd d with
  | none => readData limit buffer (suspended d) d.length
  | some e =>
    match splitFinalBuffer limit buffer 0 e d.length with
    | .error exc => .raised exc
    | .ok (document, remainder) =>
      if document = [] then .returned (remainder, []) else .returned (document, remainder)

variable {limit} {o c : UInt8} {b d x t buffer : Bytes}

theorem strip_suffix (b : Bytes) : strip b <:+ b := List.dropWhile_suffix _

/-- The search of a plain value, started after bytes that are all printable. -/
theorem searchPlain_eq {i : ℕ} (ho : enclosureBytes o = none)
    (hbuf : buffer.take (o :: x).length = o :: x)
    (hi : ∀ b ∈ (o :: x).take i, isNonPrintable b = false) (hle : i ≤ (o :: x).length) :
    (searchPlain limit buffer i (o :: x).length : Result ι) = outcome limit buffer (o :: x) := by
  have hsearch : searchNonPrintable buffer i (o :: x).length =
      (o :: x).findIdx? isNonPrintable := by
    have hnone : ((o :: x).take i).findIdx? isNonPrintable = none := by
      rw [List.findIdx?_eq_none_iff]; exact hi
    rw [searchNonPrintable, hbuf]
    conv_rhs => rw [← List.take_append_drop i (o :: x), List.findIdx?_append, hnone]
    rw [Option.none_or, List.length_take, min_eq_left hle]
    congr 1; funext k; omega
  unfold searchPlain outcome
  rw [hsearch]
  rcases hfind : List.findIdx? isNonPrintable (o :: x) with _ | e
  · simp only [documentEnd, ho, hfind, suspended, List.length_cons]
  · rcases hsplit : (splitFinalBuffer limit buffer 0 e (x.length + 1) :
      Except (IncrementalDeserializeError ι) _) with _ | ⟨_, _⟩ <;>
      simp only [documentEnd, ho, hfind, hsplit, List.length_cons]

/-- The search of the end of a frame, for the automaton. -/
theorem searchFrame_eq {i n : ℕ} {q : Bool} (ho : enclosureBytes o = some c)
    (hbuf : buffer.take (o :: x).length = o :: x)
    (h : matchLoop o c (finditer o c i ((o :: x).drop i)) n q = frameSearch o c 1 (.opened o) x) :
    (searchFrame limit buffer o c i (o :: x).length n q : Result ι) =
      outcome limit buffer (o :: x) := by
  unfold searchFrame outcome
  rw [hbuf, h]
  simp only [documentEnd, ho, suspended, frameSearch, List.length_cons]
  rcases hk : haltsAt (FrameState.step o c) FrameState.closed (.opened o) x with _ | k
  · rfl
  · simp only [Option.map_some]
    rcases hs : (splitFinalBuffer limit buffer 0 (1 + k) (x.length + 1) :
      Except (IncrementalDeserializeError ι) (Bytes × Bytes)) with exc | ⟨document, remainder⟩
    · rfl
    · have hne : document ≠ [] := by
        unfold splitFinalBuffer at hs
        simp only at hs
        split_ifs at hs
        have hk' := haltsAt_le hk
        cases hs
        have hlen := congrArg List.length hbuf
        rw [List.length_take, List.length_cons] at hlen
        rw [List.drop_zero, ← List.length_pos_iff, List.length_take]
        omega
      simp only [hne, if_false, Resumed.ofExcept_ok]

/-- Bytes at the beginning of the buffer, written again, leave it as it is. -/
theorem writeAt_zero_of_take (h : buffer.take d.length = d) : writeAt buffer 0 d = buffer := by
  rw [writeAt, List.take_zero, List.nil_append, Nat.zero_add]
  nth_rewrite 1 [← h]
  exact List.take_append_drop _ _

/-- The first byte that is not a whitespace is at the beginning of the stripped bytes. -/
theorem strip_eq_drop (b : Bytes) : strip b = b.drop (b.length - (strip b).length) :=
  List.suffix_iff_eq_drop.1 (strip_suffix b)

theorem whitespacesEnd_zero (hbuf : buffer.take b.length = b) :
    whitespacesEnd buffer 0 b.length = b.length - (strip b).length := by
  have h := congrArg List.length (List.takeWhile_append_dropWhile (p := isWhitespace) (l := b))
  rw [List.length_append] at h
  rw [whitespacesEnd, hbuf, List.drop_zero, strip]
  omega

/-- Stripped bytes stay stripped when more bytes come. -/
theorem strip_append_of_strip (hstrip : strip d = d) (hd : d ≠ []) (t : Bytes) :
    strip (d ++ t) = d ++ t := by
  cases d with
  | nil => exact absurd rfl hd
  | cons o x =>
    have ho : isWhitespace o = false := by
      by_contra h
      have hlen := (List.dropWhile_suffix isWhitespace (l := x)).length_le
      rw [strip, List.dropWhile_cons_of_pos (by simpa using h)] at hstrip
      rw [hstrip, List.length_cons] at hlen
      omega
    rw [strip, List.cons_append, List.dropWhile_cons_of_neg (by simp [ho])]

theorem strip_strip (b : Bytes) : strip (strip b) = strip b := by
  unfold strip; exact List.dropWhile_idempotent _ _

/-- The whitespaces before a document can be removed before more bytes come. -/
theorem strip_append_strip (b t : Bytes) : strip (strip b ++ t) = strip (b ++ t) := by
  by_cases hb : strip b = []
  · rw [hb, List.nil_append]
    unfold strip at hb ⊢
    rw [List.dropWhile_append, if_pos (by simp [hb])]
  · rw [strip_append_of_strip (strip_strip b) hb]
    unfold strip at hb ⊢
    rw [List.dropWhile_append, if_neg (by simpa using hb)]

/-- The document starts at the beginning of the buffer. -/
theorem startDocument_eq (hd : d ≠ []) (hbuf : buffer.take d.length = d) :
    (startDocument limit buffer d.length : Result ι) = outcome limit buffer d := by
  cases d with
  | nil => exact absurd rfl hd
  | cons o x =>
    cases buffer with
    | nil => simp at hbuf
    | cons o' buf =>
      obtain rfl : o' = o := by simp at hbuf; exact hbuf.1
      rcases ho : enclosureBytes o' with _ | c
      · simp only [startDocument, ho]
        exact searchPlain_eq ho hbuf (by simp) (Nat.zero_le _)
      · simp only [startDocument, ho]
        refine searchFrame_eq ho hbuf ?_
        rw [matchLoop_finditer ho _ _ _ _ Nat.one_ne_zero]; rfl

/-- **A read of `__raw_parse_impl`**: what was received and the read, without the whitespaces before
    the document, are moved to the beginning of the buffer. -/
theorem send_eq (hd : documentEnd d = none) (hstrip : strip d = d) (ht : t ≠ [])
    (hbuf : buffer.take (d ++ t).length = d ++ t) :
    (rawParseImpl limit : BufferGenerator _ _ _ (IncrementalDeserializeError ι)).send (suspended d)
        buffer t.length =
      if strip (d ++ t) = [] then (buffer, .yielded .skipping (some 0))
      else (writeAt buffer 0 (strip (d ++ t)),
        outcome limit (writeAt buffer 0 (strip (d ++ t))) (strip (d ++ t))) := by
  have hnread : ¬ t.length < 1 := by
    have := List.length_pos_iff.2 ht
    omega
  cases d with
  | nil =>
    rw [List.nil_append] at hbuf ⊢
    have hle := (strip_suffix t).length_le
    simp only [suspended, rawParseImpl, whitespacesEnd_zero hbuf]
    by_cases hs : strip t = []
    · rw [if_pos hs, if_pos (by simp [hs])]
    · have hpos := List.length_pos_iff.2 hs
      have hmove : (if t.length - (strip t).length > 0 then
          moveToStart buffer (t.length - (strip t).length) t.length else buffer) =
            writeAt buffer 0 (strip t) := by
        split_ifs with h
        · rw [moveToStart, hbuf, ← strip_eq_drop]
        · have hst : strip t = t := (strip_suffix t).eq_of_length (by omega)
          rw [hst, writeAt_zero_of_take hbuf]
      have hfit : 0 + (strip t).length ≤ buffer.length := by
        have := congrArg List.length hbuf
        rw [List.length_take] at this
        omega
      have htake : (writeAt buffer 0 (strip t)).take (strip t).length = strip t := by
        have := take_writeAt hfit
        simpa using this
      have hlen : t.length - (t.length - (strip t).length) = (strip t).length := by omega
      rw [if_neg hs, if_neg (by omega), hmove, hlen, startDocument_eq hs htake]
  | cons o x =>
    have hs : strip (o :: x ++ t) = o :: x ++ t := strip_append_of_strip hstrip (by simp) t
    have hlen : (o :: x ++ t).length = x.length + 1 + t.length := by simp; omega
    rw [hs, if_neg (by simp), writeAt_zero_of_take hbuf]
    rcases ho : enclosureBytes o with _ | c
    · have hnone : ∀ b ∈ (o :: (x ++ t)).take (x.length + 1), isNonPrintable b = false := by
        simp only [documentEnd, ho, List.findIdx?_eq_none_iff] at hd
        simpa using hd
      simp only [suspended, ho, rawParseImpl, hnread, if_false, ← hlen]
      exact congrArg (Prod.mk buffer) (searchPlain_eq ho hbuf hnone (by simp))
    · have hrun : Runs (FrameState.step o c) FrameState.closed (.opened o) x
          (x.foldl (FrameState.step o c) (.opened o)) := by
        simp only [documentEnd, ho, Option.map_eq_none_iff] at hd
        exact ⟨hd, rfl⟩
      have hu : buffer = o :: x ++ (t ++ buffer.drop (o :: x ++ t).length) := by
        have := List.take_append_drop (o :: x ++ t).length buffer
        rwa [hbuf, List.append_assoc, eq_comm] at this
      have hresumed := matchLoop_resumed ho hrun t (t ++ buffer.drop (o :: x ++ t).length)
      rw [← hu] at hresumed
      simp only [suspended, ho, rawParseImpl, hnread, if_false, ← hlen]
      exact congrArg (Prod.mk buffer) (searchFrame_eq ho hbuf hresumed)

/-! ## The outcomes -/

theorem documentEnd_le {e : ℕ} (h : documentEnd d = some e) : e ≤ d.length := by
  cases d with
  | nil => simp [documentEnd] at h
  | cons o x =>
    simp only [documentEnd] at h
    rcases ho : enclosureBytes o with _ | c <;> rw [ho] at h
    · simp only [List.findIdx?_eq_some_iff_getElem] at h
      obtain ⟨hlt, -⟩ := h
      exact hlt.le
    · obtain ⟨k, hk, rfl⟩ := Option.map_eq_some_iff.1 h
      have := haltsAt_le hk
      simp; omega

theorem drop_length_takeWhile (p : UInt8 → Bool) (l : Bytes) :
    l.drop (l.takeWhile p).length = l.dropWhile p := by
  nth_rewrite 2 [← List.takeWhile_append_dropWhile (p := p) (l := l)]
  exact List.drop_left

theorem outcome_none (h : documentEnd d = none) (hl : d.length < limit) :
    (outcome limit buffer d : Result ι) = .yielded (suspended d) (some d.length) := by
  simp only [outcome, h, readData, ge_iff_le, if_neg (Nat.not_le.2 hl)]

theorem outcome_limit (h : documentEnd d = none) (hl : limit ≤ d.length) :
    (outcome limit buffer d : Result ι) = .raised ⟨.limitOverrun
      "JSON object's end frame is not found, and chunk exceed the limit" d.length,
        buffer.drop d.length⟩ := by
  simp only [outcome, h, readData, ge_iff_le, if_pos hl, LimitOverrunError.init,
    LimitOverrunError.remainingData_nil]

section
variable (hbuf : buffer.take d.length = d)
include hbuf

/-- The remainder begins after the whitespaces that follow the document. -/
theorem whitespacesEnd_eq {e : ℕ} (he : e ≤ d.length) :
    d.drop (whitespacesEnd buffer e d.length) = strip (d.drop e) ∧
      buffer.drop (whitespacesEnd buffer e d.length) = strip (d.drop e) ++ buffer.drop d.length := by
  have hle := (List.takeWhile_prefix isWhitespace (l := d.drop e)).length_le
  rw [List.length_drop] at hle
  have hd : d.drop (whitespacesEnd buffer e d.length) = strip (d.drop e) := by
    rw [whitespacesEnd, hbuf, ← List.drop_drop, drop_length_takeWhile, strip]
  refine ⟨hd, ?_⟩
  have hw : whitespacesEnd buffer e d.length ≤ d.length := by
    rw [whitespacesEnd, hbuf]; omega
  have hsplit := List.take_append_drop d.length buffer
  rw [hbuf] at hsplit
  nth_rewrite 2 [← hsplit]
  rw [List.drop_append_of_le_length hw, hd]

theorem outcome_some {e : ℕ} (h : documentEnd d = some e) (hl : e ≤ limit) (he : 0 < e) :
    (outcome limit buffer d : Result ι) = .returned (d.take e, strip (d.drop e)) := by
  have hle := documentEnd_le h
  have hne : d.take e ≠ [] := by
    rw [← List.length_pos_iff, List.length_take]; omega
  have htake : buffer.take e = d.take e := by
    rw [← hbuf, List.take_take, min_eq_left hle]
  simp only [outcome, h, splitFinalBuffer, gt_iff_lt, if_neg (Nat.not_lt.2 hl), List.drop_zero,
    htake, hne, if_false, hbuf, (whitespacesEnd_eq hbuf hle).1]

/-- A first byte that is not printable: all that was received is the document. -/
theorem outcome_zero (h : documentEnd d = some 0) (hstrip : strip d = d) :
    (outcome limit buffer d : Result ι) = .returned (d, []) := by
  have hw := (whitespacesEnd_eq hbuf (Nat.zero_le _)).1
  rw [List.drop_zero, hstrip] at hw
  simp only [outcome, h, splitFinalBuffer, gt_iff_lt, Nat.not_lt_zero, if_false, List.take_zero,
    List.drop_nil, if_true, hbuf, hw]

theorem outcome_long {e : ℕ} (h : documentEnd d = some e) (hl : limit < e) :
    ∃ consumed, (outcome limit buffer d : Result ι) = .raised ⟨.limitOverrun
      "JSON object's end frame is found, but chunk is longer than limit" consumed,
        strip (d.drop e) ++ buffer.drop d.length⟩ := by
  refine ⟨whitespacesEnd buffer e d.length, ?_⟩
  simp only [outcome, h, splitFinalBuffer, gt_iff_lt, if_pos hl, LimitOverrunError.init,
    LimitOverrunError.remainingData_nil, (whitespacesEnd_eq hbuf (documentEnd_le h)).2]

end

/-! ## `raw_parse` -/

theorem rawParse_send_nil (d : Bytes) :
    (rawParse limit : Generator _ _ _ _ (SerializerError ι)).send ⟨d, suspended d⟩ [] =
      .yielded ⟨d, suspended d⟩ () := by
  cases d with
  | nil => rfl
  | cons o x =>
    rcases ho : enclosureBytes o with _ | c <;>
      simp [rawParse, suspended, ho, rawParseImpl, RawParseState.resume]

section
variable (hd : documentEnd d = none) (hstrip : strip d = d) (ht : t ≠ [])
include hd hstrip ht

/-- A chunk that leaves only whitespaces. -/
theorem rawParse_send_blank (h : strip (d ++ t) = []) :
    (rawParse limit : Generator _ _ _ _ (SerializerError ι)).send ⟨d, suspended d⟩ t =
      .yielded ⟨[], .skipping⟩ () := by
  simp only [rawParse, send_eq hd hstrip ht (List.take_length), h, if_true]
  rfl

variable (hne : strip (d ++ t) ≠ [])
include hne

/-- A chunk that leaves something. -/
theorem rawParse_send :
    (rawParse limit : Generator _ _ _ _ (SerializerError ι)).send ⟨d, suspended d⟩ t =
      RawParseState.resume (writeAt (d ++ t) 0 (strip (d ++ t)),
        outcome limit (writeAt (d ++ t) 0 (strip (d ++ t))) (strip (d ++ t))) := by
  simp only [rawParse, send_eq hd hstrip ht (List.take_length), hne, if_false]

end

/-- The buffer of `raw_parse` after the received bytes have been moved. -/
theorem take_drop_moved (b : Bytes) :
    (writeAt b 0 (strip b)).take (strip b).length = strip b ∧
      (writeAt b 0 (strip b)).drop (strip b).length = b.drop (strip b).length := by
  have hfit : 0 + (strip b).length ≤ b.length := by
    have := (strip_suffix b).length_le; omega
  have h1 := take_writeAt hfit
  have h2 := drop_writeAt hfit
  rw [Nat.zero_add, List.take_zero, List.nil_append] at h1
  rw [Nat.zero_add] at h2
  exact ⟨h1, h2⟩

end

/-! ### Between two reads -/

section
variable {ι : Type} {limit : ℕ} {b c : Bytes}

/-- Once the document has begun, the bytes that come belong to it or follow it. -/
theorem strip_append_of_ne (hne : strip b ≠ []) (t : Bytes) : strip (b ++ t) = strip b ++ t := by
  rw [← strip_append_strip, strip_append_of_strip (strip_strip b) hne]

section
variable (hb : documentEnd (strip b) = none)
include hb

/-- A read after which the end of the document is still unknown. -/
theorem rawParse_send_open (hd : documentEnd (strip (b ++ c)) = none)
    (hlimit : (strip (b ++ c)).length < limit) :
    (rawParse limit : Generator _ _ _ _ (SerializerError ι)).send ⟨strip b, suspended (strip b)⟩ c =
      .yielded ⟨strip (b ++ c), suspended (strip (b ++ c))⟩ () := by
  by_cases hc : c = []
  · rw [hc, List.append_nil, rawParse_send_nil]
  have hall := strip_append_strip b c
  by_cases hne : strip (strip b ++ c) = []
  · rw [rawParse_send_blank hb (strip_strip b) hc hne, ← hall, hne]
    rfl
  · have htake := (take_drop_moved (strip b ++ c)).1
    rw [hall] at htake
    rw [rawParse_send hb (strip_strip b) hc hne, hall, outcome_none hd hlimit]
    simp only [RawParseState.resume, Option.getD_some, htake]

/-- A read that ends `raw_parse`, by the outcome for what has been received. -/
theorem rawParse_send_ended (hne : strip (b ++ c) ≠ []) (hc : c ≠ []) :
    (rawParse limit : Generator _ _ _ _ (SerializerError ι)).send ⟨strip b, suspended (strip b)⟩ c =
      RawParseState.resume (writeAt (strip b ++ c) 0 (strip (b ++ c)),
        outcome limit (writeAt (strip b ++ c) 0 (strip (b ++ c))) (strip (b ++ c))) := by
  have hall := strip_append_strip b c
  rw [rawParse_send hb (strip_strip b) hc (by rwa [hall]), hall]

end

theorem take_moved (b c : Bytes) : (writeAt (strip b ++ c) 0 (strip (b ++ c))).take
    (strip (b ++ c)).length = strip (b ++ c) := by
  have htake := (take_drop_moved (strip b ++ c)).1
  rwa [strip_append_strip b c] at htake

end

end EasyNetwork.JsonParser
