/-
  What `raw_parse` hands on.

  When the whitespaces before a document are removed, the bytes after the moved ones stay in
  the buffer.  The remainder of a returned document, and that of an unfinished one, leaves them out or
  has them only (`Sound`); the remainder of a document that is longer than the limit has them after the
  bytes that follow the document.  `rawParse_sound_iff`: exactly the inputs of this kind (`Invents`)
  make `raw_parse` hand on bytes that it did not receive.
-/
import EasyNetwork.JsonFrames

namespace EasyNetwork.JsonParser

open Coroutine

variable {ι : Type} {limit : ℕ}

/-- The end of `raw_parse` hands on received bytes only: the remainder is a suffix of the bytes that
    were sent, and a returned document comes before it. -/
def Sound (sent : Bytes) : Resumed RawParseState Unit (Bytes × Bytes) (SerializerError ι) → Prop
  | .returned (document, remainder) => ∃ a b, sent = a ++ document ++ b ++ remainder
  | .raised (.incremental e) => e.remainingData <:+ sent
  | .raised (.other _) | .yielded _ _ => True

/-- The read that brings the first byte of the document has whitespaces `ws` before it and brings
    all of a document that is longer than the limit; and what follows the document and its
    whitespaces is not what was received `len(ws)` bytes before the end. -/
def Invents (limit : ℕ) (chunks : List Bytes) : Prop :=
  ∃ blanks ws d e, chunks = blanks ++ [ws ++ d] ∧ strip blanks.flatten = [] ∧ strip ws = [] ∧
    strip d = d ∧ documentEnd d = some e ∧ limit < e ∧
    ¬ strip (d.drop e) <:+ chunks.flatten.take (chunks.flatten.length - ws.length)

/-- What `raw_parse` has kept of the chunks. -/
def Kept (st : RawParseState) (chunks : List Bytes) : Prop :=
  st = ⟨strip chunks.flatten, suspended (strip chunks.flatten)⟩ ∧
    documentEnd (strip chunks.flatten) = none

theorem suffix_append_right_iff {r y z : Bytes} : r ++ z <:+ y ++ z ↔ r <:+ y := by
  constructor
  · rintro ⟨a, h⟩
    rw [← List.append_assoc] at h
    exact ⟨a, List.append_cancel_right h⟩
  · rintro ⟨a, rfl⟩
    exact ⟨a, by rw [List.append_assoc]⟩

theorem Invents.documentEnd {chunks : List Bytes} (h : Invents limit chunks) :
    ∃ e, JsonParser.documentEnd (strip chunks.flatten) = some e := by
  obtain ⟨blanks, ws, d, e, rfl, h1, h2, h3, h4, -⟩ := h
  refine ⟨e, ?_⟩
  rw [List.flatten_concat, ← strip_append_strip, h1, List.nil_append, ← strip_append_strip, h2,
    List.nil_append, h3, h4]

/-- The last chunk of an input of this kind begins with the whitespaces that are removed. -/
theorem invents_iff {chunks : List Bytes} {t : Bytes} {e : ℕ}
    (he : documentEnd (strip (chunks.flatten ++ t)) = some e) :
    Invents limit (chunks ++ [t]) ↔ limit < e ∧ ¬ strip ((strip (chunks.flatten ++ t)).drop e) <:+
      (chunks.flatten ++ t).take ((chunks.flatten ++ t).length -
        ((strip chunks.flatten ++ t).length - (strip (chunks.flatten ++ t)).length)) := by
  constructor
  · rintro ⟨blanks, ws, d, e', heq, h1, h2, h3, h4, h5, h6⟩
    obtain ⟨rfl, ht⟩ := List.append_inj' heq rfl
    cases ht
    have hd : strip (chunks.flatten ++ (ws ++ d)) = d := by
      rw [← strip_append_strip, h1, List.nil_append, ← strip_append_strip, h2, List.nil_append, h3]
    rw [hd, h4] at he
    cases he
    rw [List.flatten_concat] at h6
    have hk : ([] ++ (ws ++ d)).length - d.length = ws.length := by simp
    rw [hd, h1, hk]
    exact ⟨h5, h6⟩
  · rintro ⟨h1, h2⟩
    by_cases hS : strip chunks.flatten = []
    · have ht := List.takeWhile_append_dropWhile (p := isWhitespace) (l := t)
      have hd : strip (chunks.flatten ++ t) = t.dropWhile isWhitespace := by
        rw [← strip_append_strip, hS, List.nil_append, strip]
      have hlen := congrArg List.length ht
      rw [List.length_append] at hlen
      refine ⟨chunks, t.takeWhile isWhitespace, t.dropWhile isWhitespace, e, by rw [ht], hS, ?_, ?_,
        by rw [← hd, he], h1, ?_⟩
      · rw [strip, List.dropWhile_eq_nil_iff]
        intro b hb; exact List.mem_takeWhile_imp hb
      · exact strip_strip t
      · rw [hd, hS, List.nil_append] at h2
        rw [List.flatten_concat]
        have hk : t.length - (t.dropWhile isWhitespace).length =
            (t.takeWhile isWhitespace).length := by omega
        rwa [hk] at h2
    · -- nothing has been removed in the last read
      have hd : strip (chunks.flatten ++ t) = strip chunks.flatten ++ t := by
        rw [← strip_append_strip, strip_append_of_strip (strip_strip _) hS]
      refine absurd ?_ h2
      rw [← hd, Nat.sub_self, Nat.sub_zero, List.take_length]
      exact (strip_suffix _).trans ((List.drop_suffix _ _).trans (strip_suffix _))

/-- **Step lemma.** -/
theorem kept_send {chunks : List Bytes} {st : RawParseState} (t : Bytes) (h : Kept st chunks) :
    (Sound (chunks ++ [t]).flatten ((rawParse limit : Generator _ _ _ _ (SerializerError ι)).send st t) ↔
      ¬ Invents limit (chunks ++ [t])) ∧
    ∀ st' y, (rawParse limit : Generator _ _ _ _ (SerializerError ι)).send st t = .yielded st' y →
      Kept st' (chunks ++ [t]) := by
  obtain ⟨rfl, hnone⟩ := h
  set d := strip chunks.flatten with hd
  have hstrip : strip d = d := strip_strip _
  have hall : strip (chunks ++ [t]).flatten = strip (d ++ t) := by
    rw [List.flatten_concat, hd, strip_append_strip]
  -- without the end of a document there is nothing to hand on
  have hopen : ∀ {r : Resumed RawParseState Unit (Bytes × Bytes) (SerializerError ι)},
      documentEnd (strip (d ++ t)) = none → Sound (chunks ++ [t]).flatten r →
      (Sound (chunks ++ [t]).flatten r ↔ ¬ Invents limit (chunks ++ [t])) := by
    intro r hn hr
    refine iff_of_true hr fun hi => ?_
    obtain ⟨e, he⟩ := hi.documentEnd
    rw [hall, hn] at he; cases he
  have hkept : ∀ {st'}, documentEnd (strip (d ++ t)) = none →
      st' = ⟨strip (d ++ t), suspended (strip (d ++ t))⟩ → Kept st' (chunks ++ [t]) := by
    rintro _ hn rfl
    rw [Kept, hall]
    exact ⟨rfl, hn⟩
  by_cases ht : t = []
  · subst ht
    rw [List.append_nil, hstrip] at hopen hkept
    rw [rawParse_send_nil]
    exact ⟨hopen hnone trivial, by rintro st' y ⟨⟩; exact hkept hnone rfl⟩
  by_cases hne : strip (d ++ t) = []
  · rw [rawParse_send_blank hnone hstrip ht hne]
    have hn : documentEnd (strip (d ++ t)) = none := by rw [hne]; rfl
    exact ⟨hopen hn trivial, by rintro st' y ⟨⟩; exact hkept hn (by rw [hne]; rfl)⟩
  rw [rawParse_send hnone hstrip ht hne]
  obtain ⟨htake, hdrop⟩ := take_drop_moved (d ++ t)
  have hsuffix : d ++ t <:+ chunks.flatten ++ t := by
    obtain ⟨a, ha⟩ := strip_suffix chunks.flatten
    exact ⟨a, by rw [← List.append_assoc, ← hd] at *; rw [ha]⟩
  rcases hend : documentEnd (strip (d ++ t)) with _ | e
  · rcases Nat.lt_or_ge (strip (d ++ t)).length limit with hl | hl
    · rw [outcome_none hend hl]
      refine ⟨hopen hend trivial, ?_⟩
      rintro st' y ⟨⟩
      exact hkept hend (by simp only [Option.getD_some, htake])
    · rw [outcome_limit hend hl]
      refine ⟨hopen hend ?_, by rintro st' y ⟨⟩⟩
      rw [List.flatten_concat]
      exact hdrop ▸ (List.drop_suffix _ _).trans hsuffix
  · have hend' := hend
    rw [← hall, List.flatten_concat] at hend'
    have hinv : Invents limit (chunks ++ [t]) ↔ _ := invents_iff hend'
    rw [← List.flatten_concat, hall] at hinv
    have hsent : strip (d ++ t) <:+ (chunks ++ [t]).flatten := hall ▸ strip_suffix _
    rcases Nat.lt_or_ge limit e with hl | hl
    · -- the bytes after the moved ones are handed on
      obtain ⟨consumed, hout⟩ := outcome_long (ι := ι) htake hend hl
      rw [hout, hdrop]
      refine ⟨?_, by rintro st' y ⟨⟩⟩
      set k := (d ++ t).length - (strip (d ++ t)).length with hk
      have hlast : (d ++ t).drop (strip (d ++ t)).length <:+ (chunks ++ [t]).flatten := by
        rw [List.flatten_concat]; exact (List.drop_suffix _ _).trans hsuffix
      have hsplit : (chunks ++ [t]).flatten =
          (chunks ++ [t]).flatten.take ((chunks ++ [t]).flatten.length - k) ++
            (d ++ t).drop (strip (d ++ t)).length := by
        rw [List.suffix_iff_eq_drop, List.length_drop, ← hk] at hlast
        nth_rewrite 1 [← List.take_append_drop ((chunks ++ [t]).flatten.length - k)
          (chunks ++ [t]).flatten]
        rw [hlast]
      rw [hinv]
      simp only [RawParseState.resume, Sound, hl, true_and, not_not]
      nth_rewrite 1 [hsplit]
      exact suffix_append_right_iff
    · have hnot : ¬ Invents limit (chunks ++ [t]) := fun hi => (Nat.not_lt.2 hl) (hinv.1 hi).1
      obtain ⟨a, ha⟩ := hsent
      rcases Nat.eq_zero_or_pos e with rfl | hpos
      · rw [outcome_zero htake hend (strip_strip _)]
        exact ⟨iff_of_true ⟨a, [], by simp [ha]⟩ hnot, by rintro st' y ⟨⟩⟩
      · rw [outcome_some htake hend hl hpos]
        obtain ⟨w, hw⟩ := strip_suffix ((strip (d ++ t)).drop e)
        refine ⟨iff_of_true ⟨a, w, ?_⟩ hnot, by rintro st' y ⟨⟩⟩
        rw [List.append_assoc _ w, hw, List.append_assoc, List.take_append_drop, ha]

/-- **`raw_parse` hands on received bytes only, except for the inputs that make it invent some.** -/
theorem rawParse_sound_iff (limit : ℕ) {chunks : List Bytes}
    {r : Resumed RawParseState Unit (Bytes × Bytes) (SerializerError ι)}
    (h : (rawParse limit).after chunks = some r) :
    Sound chunks.flatten r ↔ ¬ Invents limit chunks := by
  have hnext : ¬ Invents limit [] := by
    rintro ⟨blanks, ws, d, e, hnil, -⟩
    simp at hnil
  have hrule := Generator.after_inv (G := (rawParse limit : Generator _ _ _ _ (SerializerError ι)))
    Kept (P := fun chunks r => Sound chunks.flatten r ↔ ¬ Invents limit chunks)
    (fun st y hs => ?_) ?_ (fun st chunks t hk => kept_send t hk)
  · exact (hrule chunks r h).1
  · simp only [rawParse] at hs
    split_ifs at hs
    cases hs; exact ⟨rfl, rfl⟩
  · simp only [rawParse]
    split_ifs
    · exact iff_of_true trivial hnext
    · exact iff_of_true trivial hnext

/-- A line that is cut between two documents. -/
theorem rawParse_sound_line :
    Sound (ι := Unit) [123, 125, 10, 91] (.returned ([123, 125], [91])) := by
  have h : (rawParse (ι := Unit) 8).after [[123], [125, 10, 91]] =
      some (.returned ([123, 125], [91])) := by decide
  refine (rawParse_sound_iff 8 h).2 ?_
  rintro ⟨blanks, ws, d, e, hc, h1, -⟩
  have hc' : [[123]] ++ [[125, 10, 91]] = blanks ++ [ws ++ d] := hc
  obtain ⟨rfl, -⟩ := List.append_inj' hc' rfl
  revert h1; decide

/-- With the limit 1, the bytes ` {}x` leave `xx`. -/
theorem rawParse_invents :
    ∃ e : IncrementalDeserializeError Unit,
      (rawParse 1).after [[32, 123, 125, 120]] = some (.raised (.incremental e)) ∧
        e.remainingData = [120, 120] ∧
        ¬ Sound [32, 123, 125, 120]
          (.raised (.incremental e) : Resumed RawParseState Unit (Bytes × Bytes) _) := by
  refine ⟨⟨.limitOverrun "JSON object's end frame is found, but chunk is longer than limit" 2,
    [120, 120]⟩, by decide, rfl, ?_⟩
  simp only [Sound]; decide

end EasyNetwork.JsonParser
