/-
  Recovery from overlong packets.

  A `StreamDataConsumer` over `incremental_deserialize` reports the segments of the stream in
  order (`reads_recover`).  A segment that exceeds the limit gives one or more `LimitOverrunError`s,
  and then at most the packet of one of its ends.

  Between two calls of `next` the consumer has dropped a part of the segment that it is receiving
  iff it has reported an error for it (`Begun`).  What it still holds is enough to find the end of
  that segment (`Search.Keeps`).
-/
import EasyNetwork.SeparatedDelivery

namespace EasyNetwork

open Coroutine Search Framing

variable {P ι : Type}

/-- The verdict is a `LimitOverrunError`. -/
def Verdict.IsLimitOverrun : Verdict P ι → Prop
  | .error (.limitOverrun _ _) => True
  | _ => False

namespace AutoSeparatedPacketSerializer

variable (S : AutoSeparatedPacketSerializer P ι) (converter : Converter P ι)

/-- The outcomes for a segment that exceeds the limit: errors, and then at most the packet of a
    proper end of the segment. -/
def Overlong (data : Bytes) (vs : List (Verdict P ι)) : Prop :=
  ∃ errs more, vs = errs ++ more ∧ errs ≠ [] ∧ (∀ v ∈ errs, v.IsLimitOverrun) ∧
    (more = [] ∨ ∃ last, last <:+ data ∧ last ≠ data ∧ more = [S.report converter last])

/-- The outcomes for a segment. -/
def Group (data : Bytes) (vs : List (Verdict P ι)) : Prop :=
  if data.length ≤ S.limit then vs = [S.report converter data] else S.Overlong converter data vs

/-- The outcome when the separator is found at `sepidx` of the buffer. -/
def found (buffer : Bytes) (sepidx : ℕ) : Verdict P ι :=
  if sepidx ≤ S.limit then S.report converter (buffer.take sepidx)
  else .error (.limitOverrun "Separator is found, but chunk is longer than limit" sepidx)

/-- The stream goes on with `b` at the beginning of a segment: the consumer still holds `e` and has
    reported the errors `errs` for this segment. -/
structure Begun (b e : Bytes) (errs : List (Verdict P ι)) : Prop where
  keeps : Keeps S.separator b e
  errors : ∀ v ∈ errs, v.IsLimitOverrun
  whole : errs = [] → e = b
  dropped : errs ≠ [] → e.length < b.length
  exceeds : errs ≠ [] → S.limit < b.length
  overlong : errs ≠ [] → ∀ t i, find S.separator (b ++ t) = some i → S.limit < i

variable {S converter} {b e t : Bytes} {errs : List (Verdict P ι)} {i : ℕ}

namespace Begun

theorem start (b : Bytes) : S.Begun b b ([] : List (Verdict P ι)) where
  keeps := Keeps.refl _ _
  errors := by simp
  whole _ := rfl
  dropped h := absurd rfl h
  exceeds h := absurd rfl h
  overlong h := absurd rfl h

theorem append (h : S.Begun b e errs) (t : Bytes) : S.Begun (b ++ t) (e ++ t) errs where
  keeps := h.keeps.append t
  errors := h.errors
  whole he := by rw [h.whole he]
  dropped he := by
    have := h.dropped he
    simp only [List.length_append]; omega
  exceeds he := by
    have := h.exceeds he
    rw [List.length_append]; omega
  overlong he t' i hi := h.overlong he (t ++ t') i (by rwa [← List.append_assoc])

theorem overrun (h : S.Begun b e errs) (hn : find S.separator e = none)
    (hl : S.limit < e.length + 1 - S.separator.length) {v : Verdict P ι} (hv : v.IsLimitOverrun) :
    S.Begun b (Search.overlap S.separator e) (errs ++ [v]) := by
  have hsep := List.length_pos_iff.2 S.separator_ne
  have hle := h.keeps.suffix.length_le
  have hlt := overlap_length_lt S.separator_ne e
  have hb : find S.separator b = none := by rw [h.keeps.find_eq, hn]; rfl
  refine ⟨h.keeps.overlap hn S.separator_ne, fun w hw => ?_, fun he => by simp at he,
    fun _ => by omega, fun _ => by omega, fun _ t i hi => ?_⟩
  · rcases List.mem_append.1 hw with hw | hw
    · exact h.errors w hw
    · rw [List.mem_singleton.1 hw]; exact hv
  · have := lt_of_find_append hb S.separator_ne hi
    omega

/-- The separator is found: the segment ends. -/
theorem dec_eq (h : S.Begun b e errs) (hi : find S.separator e = some i) :
    (segmenter S.separator S.separator_ne).dec b =
      some (b.take (b.length - e.length + i), e.drop (i + S.separator.length)) := by
  refine (segmenter_dec_some _).2 ⟨b.length - e.length + i, ?_, rfl, ?_⟩
  · rw [h.keeps.find_eq, hi]; rfl
  · rw [Nat.add_assoc, h.keeps.drop]

theorem group (h : S.Begun b e errs) (hi : find S.separator e = some i) :
    S.Group converter (b.take (b.length - e.length + i)) (errs ++ [S.found converter e i]) := by
  have hie := find_le hi S.separator_ne
  have hle := h.keeps.suffix.length_le
  have hlen : (b.take (b.length - e.length + i)).length = b.length - e.length + i := by
    rw [List.length_take]; omega
  unfold Group found
  by_cases he : errs = []
  · -- nothing has been dropped
    obtain rfl := h.whole he
    subst he
    rw [hlen]
    simp only [Nat.sub_self, Nat.zero_add, List.nil_append]
    split_ifs with hL
    · rfl
    · exact ⟨_, [], (List.append_nil _).symm, by simp, by simp [Verdict.IsLimitOverrun], Or.inl rfl⟩
  · have hb : find S.separator (b ++ []) = some (b.length - e.length + i) := by
      rw [List.append_nil, h.keeps.find_eq, hi]; rfl
    have hover := h.overlong he [] _ hb
    have hdrop := h.dropped he
    rw [if_neg (by omega)]
    split_ifs with hL
    · refine ⟨errs, _, rfl, he, h.errors, Or.inr ⟨e.take i, h.keeps.take_suffix i, fun heq => ?_, rfl⟩⟩
      have := congrArg List.length heq
      rw [hlen, List.length_take] at this
      omega
    · refine ⟨errs ++ [_], [], (List.append_nil _).symm, by simp, fun v hv => ?_, Or.inl rfl⟩
      rcases List.mem_append.1 hv with hv | hv
      · exact h.errors v hv
      · rw [List.mem_singleton.1 hv]; trivial

end Begun

/-! ## Outcomes of a stream -/

variable (S converter) in
/-- The errors `errs`, which have been reported before, and then `vs` are the outcomes of `b`, and
    `e` is held of its last segment. -/
def Recovers (b : Bytes) (errs vs : List (Verdict P ι)) (e : Bytes) : Prop :=
  ∃ gs last, errs ++ vs = gs.flatten ++ last ∧
    List.Forall₂ (S.Group converter) (S.segments b) gs ∧ S.Begun (S.tail b) e last

theorem segments_append (stream more : Bytes) :
    S.segments (stream ++ more) = S.segments stream ++ S.segments (S.tail stream ++ more) :=
  Framer.outs_append _ _

namespace Recovers
variable {vs ws : List (Verdict P ι)} {e' r seg : Bytes} {v : Verdict P ι}

theorem stop (h : S.Begun b e errs) (hn : find S.separator b = none) :
    S.Recovers converter b errs [] e := by
  have hd := (segmenter_dec_none S.separator_ne).2 hn
  refine ⟨[], errs, by simp, ?_, ?_⟩
  · rw [segments, Framer.outs_none hd]; exact .nil
  · rw [tail, Framer.rest_none hd]; exact h

/-- The first outcome is one more error for the segment that is being received. -/
theorem overrun (h : S.Recovers converter b (errs ++ [v]) vs e) :
    S.Recovers converter b errs (v :: vs) e := by
  rwa [Recovers, List.append_cons]

theorem complete (hd : (segmenter S.separator S.separator_ne).dec b = some (seg, r))
    (hg : S.Group converter seg (errs ++ [v])) (h : S.Recovers converter r [] vs e) :
    S.Recovers converter b errs (v :: vs) e := by
  obtain ⟨gs, last, h1, h2, h3⟩ := h
  refine ⟨(errs ++ [v]) :: gs, last, ?_, ?_, ?_⟩
  · rw [List.append_cons, List.flatten_cons, List.append_assoc (errs ++ [v]), ← h1, List.nil_append]
  · rw [segments, Framer.outs_some hd]; exact .cons hg h2
  · rw [tail, Framer.rest_some hd]; exact h3

/-- What is received next continues the last segment. -/
theorem append {gs : List (List (Verdict P ι))} {last : List (Verdict P ι)}
    (h1 : errs ++ vs = gs.flatten ++ last)
    (h2 : List.Forall₂ (S.Group converter) (S.segments b) gs)
    (h3 : S.Recovers converter (S.tail b ++ t) last ws e) :
    S.Recovers converter (b ++ t) errs (vs ++ ws) e := by
  obtain ⟨gs', last', h4, h5, h6⟩ := h3
  refine ⟨gs ++ gs', last', ?_, ?_, ?_⟩
  · rw [← List.append_assoc, h1, List.append_assoc, h4, List.flatten_append, List.append_assoc]
  · rw [segments_append]; exact List.rel_append h2 h5
  · rw [tail_append]; exact h6

end Recovers

/-! ## The consumer -/

section
variable {s : ReadUntil} {c d : Bytes} {st : StreamDataConsumer ReadUntil} {chunk : Option Bytes}

variable (converter) in
/-- The generator ends when it finds the separator. -/
theorem build_send_found (hs : s.Has S.separator b) (hi : find S.separator (b ++ c) = some i) :
    (S.protocol converter).buildPacketFromChunks.send s c =
      (S.found converter (b ++ c) i).ended ((b ++ c).drop (i + S.separator.length)) := by
  simp only [StreamProtocol.buildPacketFromChunks, protocol, incrementalDeserialize, frame,
    GeneratorStreamReader.readFrame, Generator.finish,
    GeneratorStreamReader.readUntil_send_some S.limit false S.separator_ne hs hi]
  unfold found
  split_ifs with hL
  · rw [GeneratorStreamReader.readUntilFound_of_le hL, report, ← finish_withRemainder]
    simp only [Resumed.finish_returned, Resumed.ofExcept_ok, Resumed.finish_ofExcept]
  · rw [GeneratorStreamReader.readUntilFound_of_lt (by omega),
      ← LimitOverrunError.remainingData_of_occursAt S.separator_ne (find_eq_some_iff.1 hi).1]
    rfl

variable (converter) in
/-- Without the separator the generator waits, or ends because of the limit. -/
theorem build_send_none (hs : s.Has S.separator b) (hn : find S.separator (b ++ c) = none) :
    (∃ s', (S.protocol converter).buildPacketFromChunks.send s c = .yielded s' () ∧
        s'.Has S.separator (b ++ c)) ∨
      (S.limit < (b ++ c).length + 1 - S.separator.length ∧ ∃ v : Verdict P ι, v.IsLimitOverrun ∧
        (S.protocol converter).buildPacketFromChunks.send s c =
          v.ended (Search.overlap S.separator (b ++ c))) := by
  simp only [StreamProtocol.buildPacketFromChunks, protocol, incrementalDeserialize, frame,
    GeneratorStreamReader.readFrame, Generator.finish]
  rcases GeneratorStreamReader.readUntil_send_none S.limit false S.separator_ne hs hn (ι := ι)
    with ⟨s', h1, h2⟩ | ⟨h1, h2⟩
  · exact Or.inl ⟨s', by rw [h1]; rfl, h2⟩
  · refine Or.inr ⟨h1, .error (.limitOverrun "Separator is not found, and chunk exceed the limit"
      ((b ++ c).length + 1 - S.separator.length)), trivial, ?_⟩
    rw [h2, ← LimitOverrunError.remainingData_of_tail S.separator_ne (by omega)]
    rfl

variable (converter) in
/-- **Step lemma.**  `next` waits for more of the stream, or what it reports goes on with the
    outcomes of what it keeps. -/
theorem next_recovers (hst : StreamDataConsumer.Holds (segmenter S.separator S.separator_ne)
      (ReadUntil.Has S.separator) st e)
    (hd : st.buffer ++ chunk.getD [] = d) (hne : d ≠ []) (h : S.Begun b (e ++ d) errs) :
    (∃ s, StreamDataConsumer.next (S.protocol converter) st chunk = (.stopIteration, ⟨[], some s⟩) ∧
        s.Has S.separator (e ++ d) ∧ find S.separator (e ++ d) = none) ∨
      ∃ v r b' errs', StreamDataConsumer.next (S.protocol converter) st chunk =
          (v.result r, ⟨r, none⟩) ∧ r.length < (e ++ d).length ∧ S.Begun b' r errs' ∧
        ∀ vs e', S.Recovers converter b' errs' vs e' → S.Recovers converter b errs (v :: vs) e' := by
  have hsep := List.length_pos_iff.2 S.separator_ne
  obtain ⟨s, hs, hnext⟩ :=
    StreamDataConsumer.next_of_holds (implements converter) hst hd hne
  rw [hnext, StreamDataConsumer.send]
  rcases hf : find S.separator (e ++ d) with _ | i
  · rcases build_send_none converter hs hf with ⟨s', h1, h2⟩ | ⟨h1, v, hv, h2⟩
    · exact Or.inl ⟨s', by rw [h1], h2, rfl⟩
    · refine Or.inr ⟨v, Search.overlap S.separator (e ++ d), b, errs ++ [v], ?_, ?_,
        h.overrun hf h1 hv, fun vs e' => Recovers.overrun⟩
      · rw [h2]; cases v <;> rfl
      · have := overlap_length_lt S.separator_ne (e ++ d)
        omega
  · refine Or.inr ⟨S.found converter (e ++ d) i, (e ++ d).drop (i + S.separator.length), _, [], ?_, ?_,
      Begun.start _, fun vs e' => Recovers.complete (h.dec_eq hf) (h.group hf)⟩
    · rw [build_send_found converter hs hf]
      cases S.found converter (e ++ d) i <;> rfl
    · have := find_le hf S.separator_ne
      rw [List.length_drop]; omega

variable (converter) in
/-- `next(None)` until `StopIteration`. -/
theorem drained_recovers (h : S.Begun b d errs) :
    ∃ vs st' e, StreamDataConsumer.Drained (S.protocol converter) ⟨d, none⟩ vs st' ∧
      StreamDataConsumer.Rep (segmenter S.separator S.separator_ne) (ReadUntil.Has S.separator)
        st' e ∧ S.Recovers converter b errs vs e := by
  induction hn : d.length using Nat.strongRecOn generalizing b d errs with
  | ind n ih =>
    by_cases hne : d = []
    · subst hne
      refine ⟨[], _, [], .stop rfl, StreamDataConsumer.rep_init _ _, Recovers.stop h ?_⟩
      rw [h.keeps.find_eq, find_nil S.separator_ne]; rfl
    have hd' : (⟨d, none⟩ : StreamDataConsumer ReadUntil).buffer ++
        (none : Option Bytes).getD [] = d := List.append_nil d
    rcases next_recovers converter (e := []) (Or.inl ⟨rfl, rfl⟩) hd' hne h with
      ⟨s, h1, h2, h3⟩ | ⟨v, r, b', errs', h1, hr, h2, h3⟩
    · refine ⟨[], _, d, .stop h1, ⟨rfl, (segmenter_dec_none _).2 h3, Or.inr ⟨s, d, rfl, h2, hne, rfl⟩⟩,
        Recovers.stop h ?_⟩
      rw [h.keeps.find_eq, show find S.separator d = none from h3]; rfl
    · obtain ⟨vs, st', e, h4, h5, h6⟩ := ih _ (hn ▸ hr) h2 rfl
      exact ⟨v :: vs, st', e, .more h1 (Verdict.verdict?_result _ _) h4, h5, h3 vs e h6⟩

variable (converter) in
/-- **Run lemma.**  Whatever is read, wherever it is cut. -/
theorem reads_recovers : ∀ (cs : List Bytes) {st : StreamDataConsumer ReadUntil} {b e : Bytes}
    {errs : List (Verdict P ι)}, StreamDataConsumer.Rep (segmenter S.separator S.separator_ne)
      (ReadUntil.Has S.separator) st e → S.Begun b e errs → (∀ c ∈ cs, c ≠ []) →
    ∃ vs st' e', StreamDataConsumer.Reads (S.protocol converter) st cs vs st' ∧
      S.Recovers converter (b ++ cs.flatten) errs vs e'
  | [], st, b, e, errs, hr, h, _ => by
    refine ⟨[], st, e, .nil, ?_⟩
    rw [List.flatten_nil, List.append_nil]
    refine Recovers.stop h ?_
    rw [h.keeps.find_eq, (segmenter_dec_none _).1 hr.dec]; rfl
  | c :: cs, st, b, e, errs, hr, h, hne => by
    have hc := hne c List.mem_cons_self
    have hcs : ∀ c ∈ cs, c ≠ [] := fun x hx => hne x (List.mem_cons_of_mem _ hx)
    have hd : st.buffer ++ (some c).getD [] = c := by rw [hr.buffer]; rfl
    rw [List.flatten_cons, ← List.append_assoc]
    rcases next_recovers converter hr.holds hd hc (h.append c) with
      ⟨s, h1, h2, h3⟩ | ⟨v, r, b', errs', h1, -, h2, h3⟩
    · have hr' : StreamDataConsumer.Rep (segmenter S.separator S.separator_ne)
          (ReadUntil.Has S.separator) ⟨[], some s⟩ (e ++ c) :=
        ⟨rfl, (segmenter_dec_none _).2 h3, Or.inr ⟨s, e ++ c, rfl, h2, by simp [hc], rfl⟩⟩
      obtain ⟨vs, st', e', h4, h5⟩ := reads_recovers cs hr' (h.append c) hcs
      exact ⟨vs, st', e', .stop h1 (.stop rfl) h4, h5⟩
    · obtain ⟨vs, st₁, e₁, h4, h5, h6⟩ := drained_recovers converter h2
      obtain ⟨gs, last, h7, h8, h9⟩ := h3 vs e₁ h6
      obtain ⟨ws, st', e', h10, h11⟩ := reads_recovers cs h5 h9 hcs
      exact ⟨_, st', e', .more h1 (Verdict.verdict?_result _ _) h4 h10, Recovers.append h7 h8 h11⟩

end

/-- **Overlong packets are recovered from.**  Every stream, wherever it is cut, gives one group of
    outcomes for every segment, in order: the outcome of `deserialize` for a segment within the limit;
    errors, and then at most the outcome for one of its proper ends, for an overlong one.  The bytes
    after the last separator give nothing, or errors if they exceed the limit. -/
theorem reads_recover (S : AutoSeparatedPacketSerializer P ι) (converter : Converter P ι)
    {cs : List Bytes} (hne : ∀ c ∈ cs, c ≠ []) :
    (∃ vs st, StreamDataConsumer.Reads (S.protocol converter) .init cs vs st) ∧
    ∀ vs st, StreamDataConsumer.Reads (S.protocol converter) .init cs vs st →
      ∃ gs last, vs = gs.flatten ++ last ∧
        List.Forall₂ (S.Group converter) (S.segments cs.flatten) gs ∧
        (∀ v ∈ last, v.IsLimitOverrun) ∧ ((S.tail cs.flatten).length ≤ S.limit → last = []) := by
  obtain ⟨vs, st, e, h1, gs, last, h2, h3, h4⟩ := reads_recovers converter cs
    (StreamDataConsumer.rep_init _ _) (Begun.start []) hne
  refine ⟨⟨vs, st, h1⟩, fun vs' st' h => ?_⟩
  obtain ⟨rfl, -⟩ := h.unique h1
  refine ⟨gs, last, h2, h3, h4.errors, fun hl => ?_⟩
  by_contra he
  have := h4.exceeds he
  rw [List.nil_append] at this
  omega

/-- A line of one byte after an overlong one. -/
theorem reads_recover_line :
    let S := raw [10] 2 (by decide) (by decide)
    ∃ vs st, StreamDataConsumer.Reads (S.protocol none) .init [[97, 97, 97], [97, 10, 98, 10]] vs st ∧
      .ok [98] ∈ vs := by
  intro S
  have h1 : (segmenter S.separator S.separator_ne).dec [97, 97, 97, 97, 10, 98, 10] =
      some ([97, 97, 97, 97], [98, 10]) := by decide
  have h2 : (segmenter S.separator S.separator_ne).dec [98, 10] = some ([98], []) := by decide
  have hseg : S.segments [97, 97, 97, 97, 10, 98, 10] = [[97, 97, 97, 97], [98]] := by
    simp [segments, Framer.outs_some h1, Framer.outs_some h2]
  obtain ⟨⟨vs, st, h3⟩, h4⟩ :=
    @reads_recover _ _ S none [[97, 97, 97], [97, 10, 98, 10]] (by decide)
  obtain ⟨gs, last, rfl, h5, -⟩ := h4 vs st h3
  have h6 : List.Forall₂ (S.Group none) [[97, 97, 97, 97], [98]] gs := hseg ▸ h5
  refine ⟨_, st, h3, ?_⟩
  cases h6 with
  | cons _ h7 =>
    cases h7 with
    | cons h8 h9 =>
      rw [Group, if_pos (by decide)] at h8
      subst h8
      simp [S, report, verdict, raw, Verdict.convert]

end AutoSeparatedPacketSerializer

end EasyNetwork
