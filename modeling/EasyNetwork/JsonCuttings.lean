/-
  `raw_parse` on a document that is cut into reads.

  * `rawParse_automaton`: from the first byte of a frame on, `raw_parse` ends where the automaton of the
    frame halts, in one pass and whatever the reads.
  * `document_accepted_iff`: the limit is compared with the length of the document alone, unless this
    is a plain value that has exactly `limit` bytes.
-/
import EasyNetwork.JsonDelivery

namespace EasyNetwork.JsonParser

open Coroutine Automaton Framing

variable {ι : Type} {limit e : ℕ} {b c d t : Bytes} {chunks : List Bytes}

/-! ## `raw_parse` after any reads -/

theorem strip_ne_nil (h : documentEnd (strip b) = some e) : strip b ≠ [] := by
  intro hnil
  rw [hnil] at h
  cases h

/-- The end of a document is known of the received bytes, and does not move. -/
theorem documentEnd_strip_append (h : documentEnd (strip b) = some e) (t : Bytes) :
    documentEnd (strip (b ++ t)) = some e := by
  rw [strip_append_of_ne (strip_ne_nil h)]
  exact documentEnd_append h t

theorem documentEnd_strip_none (h : documentEnd (strip (b ++ t)) = none) :
    documentEnd (strip b) = none := by
  by_contra hne
  obtain ⟨e, he⟩ := Option.ne_none_iff_exists'.1 hne
  rw [documentEnd_strip_append he] at h
  cases h

theorem length_strip_le_append (b t : Bytes) : (strip b).length ≤ (strip (b ++ t)).length := by
  by_cases hnil : strip b = []
  · rw [hnil]
    exact Nat.zero_le _
  · rw [strip_append_of_ne hnil, List.length_append]
    exact Nat.le_add_right _ _

/-- **As long as the end of the document is unknown, and the limit not reached, `raw_parse` waits.** -/
theorem rawParse_after_open (hn : documentEnd (strip chunks.flatten) = none)
    (hlimit : (strip chunks.flatten).length < limit) :
    (rawParse limit : Generator _ _ _ _ (SerializerError ι)).after chunks =
      some (.yielded ⟨strip chunks.flatten, suspended (strip chunks.flatten)⟩ ()) := by
  induction chunks using List.reverseRecOn with
  | nil =>
    have hpos : limit ≠ 0 := by omega
    simp only [Generator.after, Generator.sendAll, rawParse, if_neg hpos]
    rfl
  | append_singleton chunks c ih =>
    rw [List.flatten_concat] at hn hlimit ⊢
    have hn' := documentEnd_strip_none hn
    have hlen := length_strip_le_append chunks.flatten c
    rw [Generator.after_concat, ih hn' (by omega), Option.bind_some]
    exact congrArg some (rawParse_send_open hn' hn hlimit)

theorem rawParse_after_concat (hn : documentEnd (strip chunks.flatten) = none)
    (hlimit : (strip chunks.flatten).length < limit) :
    (rawParse limit : Generator _ _ _ _ (SerializerError ι)).after (chunks ++ [c]) =
      some ((rawParse limit).send ⟨strip chunks.flatten, suspended (strip chunks.flatten)⟩ c) := by
  rw [Generator.after_concat, rawParse_after_open hn hlimit, Option.bind_some]
  rfl

/-- **The read that brings the end of the document ends `raw_parse`.** -/
theorem rawParse_after_closed (hn : documentEnd (strip chunks.flatten) = none)
    (hlimit : (strip chunks.flatten).length < limit) (hc : c ≠ [])
    (he : documentEnd (strip (chunks.flatten ++ c)) = some e) (hpos : 0 < e) (hle : e ≤ limit) :
    (rawParse limit : Generator _ _ _ _ (SerializerError ι)).after (chunks ++ [c]) =
      some (.returned ((strip (chunks.flatten ++ c)).take e,
        strip ((strip (chunks.flatten ++ c)).drop e))) := by
  have hne := strip_ne_nil he
  rw [rawParse_after_concat hn hlimit]
  refine congrArg some ((rawParse_send_ended hn hne hc).trans ?_)
  rw [outcome_some (take_moved _ _) he hle hpos]
  rfl

/-- The read that exceeds the limit before the end of the document is known. -/
theorem rawParse_after_limit (hn : documentEnd (strip (chunks.flatten ++ c)) = none)
    (hlimit : (strip chunks.flatten).length < limit)
    (hle : limit ≤ (strip (chunks.flatten ++ c)).length) :
    ∃ consumed remaining,
      (rawParse limit : Generator _ _ _ _ (SerializerError ι)).after (chunks ++ [c]) =
        some (.raised (.incremental ⟨.limitOverrun
          "JSON object's end frame is not found, and chunk exceed the limit" consumed,
            remaining⟩)) := by
  have hn' := documentEnd_strip_none hn
  have hc : c ≠ [] := by
    rintro rfl
    rw [List.append_nil] at hle
    omega
  have hne : strip (chunks.flatten ++ c) ≠ [] := List.length_pos_iff.1 (by omega)
  have hsend := @rawParse_send_ended ι limit _ _ hn' hne hc
  rw [outcome_limit hn hle] at hsend
  have hafter := rawParse_after_concat (ι := ι) (c := c) hn' hlimit
  exact ⟨_, _, hafter.trans (congrArg some hsend)⟩

/-- The read that brings the end of a document that is too long. -/
theorem rawParse_after_long (hn : documentEnd (strip chunks.flatten) = none)
    (hlimit : (strip chunks.flatten).length < limit) (hc : c ≠ [])
    (he : documentEnd (strip (chunks.flatten ++ c)) = some e) (hlt : limit < e) :
    ∃ consumed remaining,
      (rawParse limit : Generator _ _ _ _ (SerializerError ι)).after (chunks ++ [c]) =
        some (.raised (.incremental ⟨.limitOverrun
          "JSON object's end frame is found, but chunk is longer than limit" consumed,
            remaining⟩)) := by
  have hne := strip_ne_nil he
  have hsend := @rawParse_send_ended ι limit _ _ hn hne hc
  obtain ⟨consumed, hout⟩ := outcome_long (ι := ι) (take_moved chunks.flatten c) he hlt
  rw [hout] at hsend
  have hafter := rawParse_after_concat (ι := ι) (c := c) hn hlimit
  exact ⟨consumed, _, hafter.trans (congrArg some hsend)⟩

/-! ## A frame -/

/-- **`raw_parse` is the one-pass automaton of the frame.**  It ends with the read that brings the byte
    at which the automaton halts; the document ends there, and the remainder is what has been received
    after it without the whitespaces at its beginning.  If the automaton does not halt, `raw_parse`
    waits. -/
theorem rawParse_automaton (ι : Type) {limit : ℕ} {chunks : List Bytes} {o close : UInt8} {x : Bytes}
    (hchunks : ∀ c ∈ chunks, c ≠ []) (hlimit : chunks.flatten.length < limit)
    (ho : enclosureBytes o = some close) (hstart : strip chunks.flatten = o :: x) :
    match haltsAt (FrameState.step o close) FrameState.closed (.opened o) x with
    | some k =>
      ∃ cs c rest, chunks = cs ++ c :: rest ∧
        cs.flatten.length < chunks.flatten.length - x.length + k ∧
        chunks.flatten.length - x.length + k ≤ (cs ++ [c]).flatten.length ∧
        (∃ s, (rawParse limit : Generator _ _ _ _ (SerializerError ι)).after cs =
          some (.yielded s ())) ∧
        (rawParse limit : Generator _ _ _ _ (SerializerError ι)).after (cs ++ [c]) =
          some (.returned (o :: x.take k,
            strip ((cs ++ [c]).flatten.drop (chunks.flatten.length - x.length + k))))
    | none => ∃ s, (rawParse limit : Generator _ _ _ _ (SerializerError ι)).after chunks =
        some (.yielded s ()) := by
  have hend : documentEnd (strip chunks.flatten) =
      (haltsAt (FrameState.step o close) FrameState.closed (.opened o) x).map (1 + ·) := by
    rw [hstart, documentEnd, ho]
  rcases hhalts : haltsAt (FrameState.step o close) FrameState.closed (.opened o) x with _ | k
  · rw [hhalts] at hend
    have hlen := (strip_suffix chunks.flatten).length_le
    exact ⟨_, rawParse_after_open hend (by omega)⟩
  · rw [hhalts, Option.map_some] at hend
    obtain ⟨cs, c, rest, rfl, hn, he⟩ := exists_completing (f := fun b => documentEnd (strip b))
      rfl (fun b t e h => documentEnd_strip_append h t) hend
    have hc : c ≠ [] := hchunks c (by simp)
    have hne := strip_ne_nil he
    have htotal : (cs ++ c :: rest).flatten = cs.flatten ++ c ++ rest.flatten := by simp
    rw [htotal] at hstart hlimit ⊢
    rw [strip_append_of_ne hne] at hstart
    have hle := documentEnd_le he
    have hsuffix := (strip_suffix (cs.flatten ++ c)).length_le
    have hlen := congrArg List.length hstart
    have hlong := length_strip_le_append cs.flatten c
    have hbc : (cs.flatten ++ c).length = cs.flatten.length + c.length := List.length_append
    rw [List.length_append] at hlimit hlen ⊢
    rw [List.length_cons] at hlen
    refine ⟨cs, c, rest, rfl, ?_, ?_, ⟨_, rawParse_after_open hn (by omega)⟩, ?_⟩
    · by_cases hblank : strip cs.flatten = []
      · have hstrip := strip_append_strip cs.flatten c
        rw [hblank, List.nil_append] at hstrip
        have hlast := (strip_suffix c).length_le
        rw [hstrip] at hlast
        omega
      · -- the automaton has not halted on what has been received before
        obtain ⟨y, hy⟩ : ∃ y, strip cs.flatten = o :: y := by
          rcases hcs : strip cs.flatten with _ | ⟨o', y⟩
          · exact absurd hcs hblank
          · rw [strip_append_of_ne hblank, hcs] at hstart
            exact ⟨y, by rw [(List.cons.inj hstart).1]⟩
        rw [strip_append_of_ne hblank, hy] at hstart
        rw [hy, documentEnd, ho] at hn
        have hx : y ++ (c ++ rest.flatten) = x := by
          simpa using hstart
        have hlt := length_lt_haltsAt ⟨Option.map_eq_none_iff.1 hn, rfl⟩ (hx ▸ hhalts)
        have hbegun := (strip_suffix cs.flatten).length_le
        have hlen' := congrArg List.length (strip_append_of_ne hblank c)
        rw [List.length_append, hy, List.length_cons] at hlen'
        rw [hy, List.length_cons] at hbegun
        omega
    · rw [List.flatten_concat]
      omega
    · rw [rawParse_after_closed hn (by omega) hc he (by omega) (by omega)]
      have htake : (strip (cs.flatten ++ c)).take (1 + k) = o :: x.take k := by
        have happend : (strip (cs.flatten ++ c) ++ rest.flatten).take (1 + k) =
            (strip (cs.flatten ++ c)).take (1 + k) := List.take_append_of_le_length hle
        rw [← happend, hstart, Nat.add_comm]
        rfl
      have hdrop : (strip (cs.flatten ++ c)).drop (1 + k) = (cs ++ [c]).flatten.drop
          ((cs.flatten ++ c).length + rest.flatten.length - x.length + k) := by
        rw [strip_eq_drop, List.drop_drop, List.flatten_concat]
        congr 1
        omega
      rw [htake, hdrop]

/-- A backslash and the quote after it come in two reads, and then the end of the object with the
    beginning of another document. -/
theorem rawParse_automaton_cut :
    ∃ cs c rest, [[32, 123, 92], [34, 125, 10, 91]] = cs ++ c :: rest ∧ cs.flatten.length < 5 ∧
      5 ≤ (cs ++ [c]).flatten.length ∧
      (∃ s, (rawParse 8 : Generator _ _ _ _ (SerializerError Unit)).after cs =
        some (.yielded s ())) ∧
      (rawParse 8 : Generator _ _ _ _ (SerializerError Unit)).after (cs ++ [c]) =
        some (.returned ([123, 92, 34, 125], strip ((cs ++ [c]).flatten.drop 5))) :=
  @rawParse_automaton Unit 8 [[32, 123, 92], [34, 125, 10, 91]] 123 125 [92, 34, 125, 10, 91]
    (by decide) (by decide) rfl rfl

/-! ## The limit -/

/-- A document: an object, an array or a string that ends where its frame is closed, or a plain
    value, whose bytes are printable. -/
inductive IsDocument : Bytes → Prop
  | frame {o c : UInt8} {x : Bytes} (ho : enclosureBytes o = some c)
      (h : haltsAt (FrameState.step o c) FrameState.closed (.opened o) x = some x.length) :
      IsDocument (o :: x)
  | plain {b : UInt8} {x : Bytes} (hb : enclosureBytes b = none) (hw : isWhitespace b = false)
      (h : ∀ b' ∈ b :: x, isNonPrintable b' = false) : IsDocument (b :: x)

/-- The document does not begin with an enclosure. -/
def IsPlain (d : Bytes) : Prop := ∃ b x, d = b :: x ∧ enclosureBytes b = none

section
variable (ι : Type) (limit : ℕ) (reads : List Bytes)

/-- One of the reads ends `raw_parse` with the document. -/
def Returns (d : Bytes) : Prop :=
  ∃ k remainder, (rawParse limit : Generator _ _ _ _ (SerializerError ι)).after (reads.take k) =
    some (.returned (d, remainder))

/-- One of the reads ends `raw_parse` with a `LimitOverrunError`. -/
def Overruns : Prop :=
  ∃ k message consumed remaining,
    (rawParse limit : Generator _ _ _ _ (SerializerError ι)).after (reads.take k) =
      some (.raised (.incremental ⟨.limitOverrun message consumed, remaining⟩))

end

theorem Returns.of_concat {cs rest : List Bytes} {remainder : Bytes}
    (h : (rawParse limit : Generator _ _ _ _ (SerializerError ι)).after (cs ++ [c]) =
      some (.returned (d, remainder))) : Returns ι limit (cs ++ c :: rest) d := by
  refine ⟨cs.length + 1, remainder, ?_⟩
  rwa [List.take_length_add_append, List.take_succ_cons, List.take_zero]

theorem Overruns.of_concat {cs rest : List Bytes} {remaining : Bytes} {message : String}
    {consumed : ℕ} (h : (rawParse limit : Generator _ _ _ _ (SerializerError ι)).after (cs ++ [c]) =
      some (.raised (.incremental ⟨.limitOverrun message consumed, remaining⟩))) :
    Overruns ι limit (cs ++ c :: rest) := by
  refine ⟨cs.length + 1, message, consumed, remaining, ?_⟩
  rwa [List.take_length_add_append, List.take_succ_cons, List.take_zero]

/-- **The encodings of JSON texts are documents.** -/
theorem isDocument_encode {cs : List Char} (h : CompactJson cs) : IsDocument (Utf8.encodeList cs) := by
  obtain ⟨b, x, hbx, hw, hframe, hplain⟩ := documentEnd_encode h
  rw [hbx] at hframe hplain ⊢
  rcases ho : enclosureBytes b with _ | c
  · have hend := hplain ho []
    rw [List.cons_append] at hend
    simp only [documentEnd, ho] at hend
    rw [← List.cons_append, List.findIdx?_append] at hend
    refine .plain ho hw (List.findIdx?_eq_none_iff.1 ?_)
    rcases hfind : (b :: x).findIdx? isNonPrintable with _ | i
    · rfl
    · rw [hfind, Option.some_or, Option.some.injEq] at hend
      obtain ⟨hlt, -⟩ := List.findIdx?_eq_some_iff_getElem.1 hfind
      omega
  · have hend := hframe (by rw [ho]; rfl) []
    rw [List.append_nil] at hend
    simp only [documentEnd, ho, List.length_cons] at hend
    obtain ⟨k, hk, hlen⟩ := Option.map_eq_some_iff.1 hend
    refine .frame ho ?_
    rw [hk, Option.some.injEq]
    omega

namespace IsDocument

theorem strip_eq (h : IsDocument d) (t : Bytes) : strip (d ++ t) = d ++ t := by
  cases h with
  | @frame o c x ho h =>
    have hw : isWhitespace o = false := by
      unfold enclosureBytes at ho
      split at ho <;> first | rfl | cases ho
    exact List.dropWhile_cons_of_neg (by rw [hw]; exact Bool.false_ne_true)
  | plain hb hw h => exact List.dropWhile_cons_of_neg (by rw [hw]; exact Bool.false_ne_true)

theorem pos (h : IsDocument d) : 0 < d.length := by
  cases h <;> exact Nat.succ_pos _

/-- The newline shows where the document ends. -/
theorem documentEnd_eq (h : IsDocument d) : documentEnd (d ++ [10]) = some d.length := by
  cases h with
  | @frame o c x ho h =>
    refine documentEnd_append ?_ [10]
    simp only [documentEnd, ho, h, Option.map_some, List.length_cons, Nat.add_comm]
  | plain hb hw h => exact documentEnd_plain hb h []

/-- Only the end of a frame is known without the newline. -/
theorem isPlain_of_documentEnd (h : IsDocument d) (hnone : documentEnd d = none) : IsPlain d := by
  cases h with
  | frame ho h =>
    simp only [documentEnd, ho, h, Option.map_some, reduceCtorEq] at hnone
  | plain hb hw h => exact ⟨_, _, rfl, hb⟩

theorem documentEnd_none (h : IsDocument d) (hplain : IsPlain d) : documentEnd d = none := by
  obtain ⟨b, x, rfl, hb⟩ := hplain
  cases h with
  | frame ho h =>
    rw [hb] at ho
    cases ho
  | plain _ hw h =>
    simp only [documentEnd, hb]
    exact List.findIdx?_eq_none_iff.2 h

end IsDocument

theorem strip_of_isPrefix (hstrip : strip t = t) (h : b <+: t) : strip b = b := by
  obtain ⟨u, rfl⟩ := h
  cases b with
  | nil => rfl
  | cons x b =>
    rw [strip, List.cons_append] at hstrip
    by_cases hx : isWhitespace x = true
    · rw [List.dropWhile_cons_of_pos hx] at hstrip
      have hlen := (List.dropWhile_suffix isWhitespace (l := b ++ u)).length_le
      rw [hstrip, List.length_cons] at hlen
      omega
    · exact List.dropWhile_cons_of_neg hx

/-- The read that brings the end of the document: before it, less than the document has been received,
    or all of a plain value. -/
theorem exists_completing_read (h : IsDocument d) {reads : List Bytes}
    (hcut : IsCutting reads (d ++ [10])) : ∃ cs c rest, reads = cs ++ c :: rest ∧ c ≠ [] ∧
      documentEnd (strip cs.flatten) = none ∧ strip cs.flatten = cs.flatten ∧
      strip (cs.flatten ++ c) = cs.flatten ++ c ∧
      documentEnd (strip (cs.flatten ++ c)) = some d.length ∧ cs.flatten <+: d ∧
      d <+: cs.flatten ++ c ∧ (cs.flatten = d → IsPlain d) := by
  have hend := h.documentEnd_eq
  rw [← h.strip_eq, ← hcut.flatten] at hend
  obtain ⟨cs, c, rest, rfl, hn, he⟩ := exists_completing (f := fun b => documentEnd (strip b))
    rfl (fun b t e hb => documentEnd_strip_append hb t) hend
  have hflat : cs.flatten ++ c ++ rest.flatten = d ++ [10] := by
    rw [← hcut.flatten]
    simp
  have hpre : cs.flatten ++ c <+: d ++ [10] := ⟨_, hflat⟩
  have hpre' : cs.flatten <+: d ++ [10] := (List.prefix_append _ c).trans hpre
  have hstrip := strip_of_isPrefix (h.strip_eq [10]) hpre
  have hstrip' := strip_of_isPrefix (h.strip_eq [10]) hpre'
  have hle := documentEnd_le he
  have hle' : cs.flatten.length ≤ d.length := by
    rw [hstrip'] at hn
    rw [hstrip] at he
    exact length_le_documentEnd hn he
  rw [hstrip] at hle
  refine ⟨cs, c, rest, rfl, hcut.ne c (by simp), hn, hstrip', hstrip, he,
    List.prefix_of_prefix_length_le hpre' (List.prefix_append _ _) hle',
    List.prefix_of_prefix_length_le (List.prefix_append _ _) hpre hle, fun heq => ?_⟩
  rw [hstrip', heq] at hn
  exact h.isPlain_of_documentEnd hn

/-- Within the limit, the document is returned. -/
theorem returns_of_le (h : IsDocument d) (hle : d.length ≤ limit)
    (hplain : ¬ (IsPlain d ∧ d.length = limit)) {reads : List Bytes}
    (hcut : IsCutting reads (d ++ [10])) : Returns ι limit reads d := by
  obtain ⟨cs, c, rest, rfl, hc, hn, hstrip, hstrip', he, hpre, hpre', heq⟩ :=
    exists_completing_read h hcut
  have hlt : (strip cs.flatten).length < limit := by
    rw [hstrip]
    rcases Nat.lt_or_ge cs.flatten.length d.length with hlt | hge
    · omega
    · have hall := hpre.eq_of_length_le hge
      have hne : d.length ≠ limit := fun hd => hplain ⟨heq hall, hd⟩
      have hlen := hpre.length_le
      omega
  have hafter := rawParse_after_closed (ι := ι) hn hlt hc he h.pos hle
  rw [hstrip', ← List.prefix_iff_eq_take.1 hpre'] at hafter
  exact .of_concat hafter

/-- Beyond the limit, it is not. -/
theorem overruns_of_lt (h : IsDocument d) (hpos : 0 < limit) (hlt : limit < d.length)
    {reads : List Bytes} (hcut : IsCutting reads (d ++ [10])) : Overruns ι limit reads := by
  obtain ⟨cs, c, rest, rfl, hc, hn, hstrip, hstrip', he, -⟩ := exists_completing_read h hcut
  rcases Nat.lt_or_ge (strip cs.flatten).length limit with hshort | hlong
  · obtain ⟨consumed, remaining, hafter⟩ := rawParse_after_long (ι := ι) hn hshort hc he hlt
    exact .of_concat hafter
  · -- an earlier read has reached the limit
    obtain ⟨pre, c', post, rfl, hbefore, hreached⟩ :=
      exists_reaching (p := fun b => limit ≤ (strip b).length) (Nat.not_le.2 hpos) hlong
    have hflat : (pre ++ c' :: post).flatten = pre.flatten ++ c' ++ post.flatten := by simp
    rw [hflat] at hn
    obtain ⟨consumed, remaining, hafter⟩ := rawParse_after_limit (ι := ι)
      (documentEnd_strip_none hn) (Nat.lt_of_not_le hbefore) hreached
    rw [List.append_assoc, List.cons_append]
    exact .of_concat hafter

/-- A plain value whose length is the limit, and the newline in a read of its own. -/
theorem not_returns_plain (h : IsDocument d) (hplain : IsPlain d) (hlen : d.length = limit) :
    ¬ Returns ι limit [d, [10]] d := by
  have hstrip : strip d = d := by
    have := h.strip_eq []
    rwa [List.append_nil] at this
  have hn : documentEnd (strip ([] ++ d)) = none := by
    rw [List.nil_append, hstrip]
    exact h.documentEnd_none hplain
  obtain ⟨consumed, remaining, hafter⟩ := @rawParse_after_limit ι limit d [] hn
    (hlen ▸ h.pos) (by rw [List.flatten_nil, List.nil_append, hstrip, hlen])
  rw [List.nil_append] at hafter
  rintro ⟨k, remainder, hreturned⟩
  rcases k with _ | _ | k
  · have hnext := @rawParse_after_open ι limit [] rfl (hlen ▸ h.pos)
    rw [List.take_zero, hnext] at hreturned
    cases hreturned
  · rw [List.take_succ_cons, List.take_zero, hafter] at hreturned
    cases hreturned
  · have htake : [d, [10]].take (k + 2) = [d] ++ [[10]] := by simp
    rw [htake, Generator.after_concat, hafter] at hreturned
    cases hreturned

/-- **The limit is compared with the length of the document**, whatever the reads, unless the document
    is a plain value of exactly `limit` bytes. -/
theorem document_accepted_iff (ι : Type) {limit : ℕ} {d : Bytes} (hpos : 0 < limit)
    (h : IsDocument d) : (∀ reads, IsCutting reads (d ++ [10]) →
        if d.length ≤ limit then Returns ι limit reads d else Overruns ι limit reads) ↔
      ¬ (IsPlain d ∧ d.length = limit) := by
  constructor
  · rintro hall ⟨hplain, hlen⟩
    have hcut : IsCutting [d, [10]] (d ++ [10]) :=
      ⟨by simp, by simpa using List.length_pos_iff.1 h.pos⟩
    have hreturns := hall _ hcut
    rw [if_pos hlen.le] at hreturns
    exact not_returns_plain h hplain hlen hreturns
  · intro hplain reads hcut
    split_ifs with hle
    · exact returns_of_le h hle hplain hcut
    · exact overruns_of_lt h hpos (Nat.lt_of_not_le hle) hcut

/-- `[]` with the limit 2, cut after its first byte. -/
theorem document_accepted_list : Returns Unit 2 [[91], [93, 10]] [91, 93] := by
  have hplain : ¬ (IsPlain [91, 93] ∧ [91, 93].length = 2) := by
    rintro ⟨⟨b, x, hbx, hb⟩, -⟩
    cases hbx
    cases hb
  have hall := (document_accepted_iff Unit (d := [91, 93]) (by decide)
    (.frame rfl (by decide))).2 hplain
  exact hall [[91], [93, 10]] ⟨rfl, by decide⟩

/-- `12` with the limit 2: it is returned when it comes with its newline, and refused when the newline
    comes alone. -/
theorem twelve_cut : Returns Unit 2 [[49, 50, 10]] [49, 50] ∧ Overruns Unit 2 [[49, 50], [10]] ∧
    ¬ (∀ reads, IsCutting reads ([49, 50] ++ [10]) →
      if [49, 50].length ≤ 2 then Returns Unit 2 reads [49, 50] else Overruns Unit 2 reads) := by
  refine ⟨⟨1, [], by decide⟩, ⟨1, "JSON object's end frame is not found, and chunk exceed the limit",
    2, [], by decide⟩, fun h => ?_⟩
  have hdoc : IsDocument [49, 50] := .plain rfl rfl (by simp [isNonPrintable])
  exact not_returns_plain hdoc ⟨_, _, rfl, rfl⟩ rfl (h [[49, 50], [10]] ⟨rfl, by decide⟩)

end EasyNetwork.JsonParser
