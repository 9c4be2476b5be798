/-
  What the separator framers do with a stream that is cut into reads.

  * `frame_after_none`, `frame_after_some`: `read_until` after any reads, in terms of the bytes
    received (`frame_after_returned`: and only so).
  * `decodes_iff`: what `incremental_serialize` yields is decoded as it was encoded iff the data
    does not end with the beginning of a separator that overlaps itself.
  * `bufferedReaduntil_limitOverrun_iff`: what the `LimitOverrunError` of `_buffered_readuntil`
    keeps is what may begin a separator iff the byte after the received ones does not matter.
-/
import EasyNetwork.BaseStream
import EasyNetwork.Lib.Framing

namespace EasyNetwork

open Coroutine Search

/-! ## `read_until` after any reads -/

namespace AutoSeparatedPacketSerializer
variable {P ι : Type} {S : AutoSeparatedPacketSerializer P ι}

theorem frame_send_none {s : ReadUntil} {b c : Bytes} (hs : s.Has S.separator b)
    (h : find S.separator (b ++ c) = none)
    (hlim : (b ++ c).length + 1 - S.separator.length ≤ S.limit) :
    ∃ s', S.frame.send s c = .yielded s' () ∧ s'.Has S.separator (b ++ c) := by
  rcases GeneratorStreamReader.readUntil_send_none S.limit false S.separator_ne hs h (ι := ι)
    with ⟨s', h1, h2⟩ | ⟨h1, -⟩
  · refine ⟨s', ?_, h2⟩
    simp only [frame, GeneratorStreamReader.readFrame, Generator.finish, h1,
      Resumed.finish_yielded]
  · omega

theorem frame_send_some {s : ReadUntil} {b c : Bytes} {i : ℕ} (hs : s.Has S.separator b)
    (h : find S.separator (b ++ c) = some i) (hlim : i ≤ S.limit) :
    S.frame.send s c =
      .returned ((b ++ c).take i, (b ++ c).drop (i + S.separator.length)) := by
  simp only [frame, GeneratorStreamReader.readFrame, Generator.finish]
  rw [GeneratorStreamReader.readUntil_send_some S.limit false S.separator_ne hs h,
    GeneratorStreamReader.readUntilFound_of_le hlim]
  rfl

theorem frame_next : S.frame.next = .yielded .filling () := by
  have h1 := S.limit_pos
  have h2 := List.length_pos_iff.2 S.separator_ne
  simp only [frame, GeneratorStreamReader.readFrame, Generator.finish, GeneratorStreamReader.readUntil]
  rw [if_neg (by omega), if_neg (by omega), if_pos trivial]
  rfl

/-- As long as the separator has not been received, and the limit not exceeded, the framer
    waits. -/
theorem frame_after_none {cs : List Bytes} (h : find S.separator cs.flatten = none)
    (hlim : cs.flatten.length + 1 - S.separator.length ≤ S.limit) :
    ∃ s, S.frame.after cs = some (.yielded s ()) ∧ s.Has S.separator cs.flatten := by
  induction cs using List.reverseRecOn with
  | nil => exact ⟨.filling, by simp only [Generator.after, Generator.sendAll, frame_next], rfl⟩
  | append_singleton cs c ih =>
    rw [List.flatten_concat] at h hlim ⊢
    have hcs : find S.separator cs.flatten = none := by
      by_contra hne
      obtain ⟨i, hi⟩ := Option.ne_none_iff_exists'.1 hne
      rw [find_append_of_some hi S.separator_ne] at h; cases h
    obtain ⟨s, h1, h2⟩ := ih hcs (by rw [List.length_append] at hlim; omega)
    obtain ⟨s', h3, h4⟩ := frame_send_none h2 h hlim
    refine ⟨s', ?_, h4⟩
    rw [Generator.after_concat, h1]; simp only [Option.bind_some, Generator.sendAll, h3]

/-- **The read that completes the separator ends the framer** with what stands before the first
    separator, and the bytes after it. -/
theorem frame_after_some {cs : List Bytes} {c : Bytes} {i : ℕ}
    (hn : find S.separator cs.flatten = none)
    (hlim : cs.flatten.length + 1 - S.separator.length ≤ S.limit)
    (h : find S.separator (cs ++ [c]).flatten = some i) (hi : i ≤ S.limit) :
    S.frame.after (cs ++ [c]) = some (.returned ((cs ++ [c]).flatten.take i,
      (cs ++ [c]).flatten.drop (i + S.separator.length))) := by
  obtain ⟨s, h1, h2⟩ := frame_after_none hn hlim
  rw [List.flatten_concat] at h ⊢
  rw [Generator.after_concat, h1]
  simp only [Option.bind_some, Generator.sendAll, frame_send_some h2 h hi]

theorem frame_after_returned {cs : List Bytes} {data remainder : Bytes}
    (h : S.frame.after cs = some (.returned (data, remainder))) :
    ∃ i, find S.separator cs.flatten = some i ∧ data = cs.flatten.take i ∧
      remainder = cs.flatten.drop (i + S.separator.length) := by
  have hrule := Generator.after_inv (G := S.frame) (fun s is => s.Has S.separator is.flatten)
    (P := fun is r => ∀ data remainder, r = .returned (data, remainder) →
      ∃ i, find S.separator is.flatten = some i ∧ data = is.flatten.take i ∧
        remainder = is.flatten.drop (i + S.separator.length))
    (fun s y hs => by rw [frame_next] at hs; cases hs; rfl)
    (fun d r hr => by rw [frame_next] at hr; cases hr)
    (fun s is c hs => ?_)
  · exact (hrule cs _ h).1 data remainder rfl
  · simp only [List.flatten_concat, frame, GeneratorStreamReader.readFrame, Generator.finish]
    rcases hf : find S.separator (is.flatten ++ c) with _ | i
    · rcases GeneratorStreamReader.readUntil_send_none S.limit false S.separator_ne hs hf
        (ι := ι) with ⟨s', h1, h2⟩ | ⟨-, h1⟩
      · rw [h1]
        constructor
        · intro d r hr; cases hr
        · intro s'' y hy; cases hy; exact h2
      · rw [h1]
        constructor
        · intro d r hr; cases hr
        · intro s'' y hy; cases hy
    · rw [GeneratorStreamReader.readUntil_send_some S.limit false S.separator_ne hs hf]
      rcases Nat.lt_or_ge S.limit i with hi | hi
      · rw [GeneratorStreamReader.readUntilFound_of_lt hi]
        constructor
        · intro d r hr; cases hr
        · intro s'' y hy; cases hy
      · rw [GeneratorStreamReader.readUntilFound_of_le hi]
        constructor
        · intro d r hr; cases hr; exact ⟨i, rfl, rfl, rfl⟩
        · intro s'' y hy; cases hy

/-! ## Encoding and decoding -/

/-- Reading the chunks ends with a call of `deserialize` on `data`; it then returns or raises with
    what has been received after `sent` as the remainder. -/
def DecodesTo (S : AutoSeparatedPacketSerializer P ι) (sent data : Bytes) (chunks : List Bytes) :
    Prop :=
  ∃ k, sent <+: (chunks.take k).flatten ∧
    S.frame.after (chunks.take k) =
      some (.returned (data, (chunks.take k).flatten.drop sent.length)) ∧
    S.incrementalDeserialize.after (chunks.take k) =
      some (match S.verdict data with
        | .ok packet => .returned (packet, (chunks.take k).flatten.drop sent.length)
        | .error cause =>
          .raised (.incremental ⟨cause, (chunks.take k).flatten.drop sent.length⟩))

/-- The data ends with the first `m` bytes of a separator with period `m`: the separator occurs
    before its own place in `data ++ separator`. -/
def EndsInPeriod (separator data : Bytes) : Prop :=
  ∃ m, 0 < m ∧ m < separator.length ∧ separator.HasPeriod m ∧ separator.take m <:+ data

/-- **Where the separator is found** after data that does not contain it. -/
theorem find_append_separator {sep data : Bytes} (hd : ¬ sep <:+: data) :
    find sep (data ++ sep) = some data.length ↔ ¬ EndsInPeriod sep data := by
  constructor
  · rintro h ⟨m, hm0, hm, hper, u, rfl⟩
    obtain ⟨-, h2, -⟩ := find_eq_some_iff.1 h
    have hlen : (u ++ sep.take m).length = u.length + m := by
      rw [List.length_append, List.length_take]; omega
    refine h2 u.length (by omega) ?_
    have := occursAt_append_right (p := sep) (l := u) (t := sep.take m ++ sep) (i := 0)
    rw [Nat.add_zero, ← List.append_assoc] at this
    exact this.2 hper
  · intro h
    refine find_eq_some_iff.2 ⟨occursAt_append_self sep data, fun i hi ho => ?_, by simp⟩
    rcases Nat.lt_or_ge data.length (i + sep.length) with hlt | hge
    · -- the occurrence runs into the appended separator: it is a period of it
      have hlen : (data.drop i).length = data.length - i := List.length_drop
      rw [OccursAt, List.drop_append_of_le_length hi.le] at ho
      have htake : sep.take (data.length - i) = data.drop i := by
        rw [← hlen]
        exact (List.prefix_iff_eq_take.1 (List.prefix_of_prefix_length_le
          (List.prefix_append _ _) ho (by omega))).symm
      refine h ⟨data.length - i, by omega, by omega, ?_, ?_⟩
      · rw [List.HasPeriod, htake]; exact ho
      · rw [htake]; exact List.drop_suffix _ _
    · exact hd (((occursAt_append_left hge).1 ho).isInfix.trans (List.drop_suffix i data).isInfix)

theorem exists_completing_chunk {sep : Bytes} (hsep : sep ≠ []) {i : ℕ} {chunks : List Bytes}
    (h : find sep chunks.flatten = some i) :
    ∃ cs c rest, chunks = cs ++ c :: rest ∧ find sep cs.flatten = none ∧
      find sep (cs ++ [c]).flatten = some i := by
  obtain ⟨cs, c, rest, rfl, hcs, hc⟩ := Framing.exists_completing (find_nil hsep)
    (fun _ t _ hl => find_append_of_some hl hsep t) h
  exact ⟨cs, c, rest, rfl, hcs, by rwa [List.flatten_concat]⟩

theorem incrementalSerialize_ok {p : P} {data W : Bytes}
    (hcheck : S.incrementalSerializeCheckSeparator = true) (hser : S.serialize p = .ok data)
    (hW : S.incrementalSerialize p = .ok [W]) :
    W = removeSeparators S.separator data ++ S.separator ∧
      ¬ S.separator <:+: removeSeparators S.separator data := by
  simp only [incrementalSerialize, hser, hcheck, if_true] at hW
  split_ifs at hW with h1 h2
  · cases hW
  · cases hW; exact ⟨rfl, h1⟩

/-- Data after which the separator is found in its place is decoded as it is, whatever follows and
    however it is cut. -/
theorem decodesTo_of_find {d : Bytes}
    (h : find S.separator (d ++ S.separator) = some d.length)
    (hlim : (d ++ S.separator).length < S.limit) {T : Bytes} {chunks : List Bytes}
    (hcut : chunks.flatten = (d ++ S.separator) ++ T) :
    S.DecodesTo (d ++ S.separator) d chunks := by
  rw [List.length_append] at hlim
  have hfind : find S.separator chunks.flatten = some d.length := by
    rw [hcut]; exact find_append_of_some h S.separator_ne T
  obtain ⟨cs, c, rest, rfl, h1, h2⟩ := exists_completing_chunk S.separator_ne hfind
  have htake : (cs ++ c :: rest).take (cs.length + 1) = cs ++ [c] := by
    rw [List.take_length_add_append]; rfl
  have hcslen : cs.flatten.length + 1 - S.separator.length ≤ S.limit := by
    -- without the separator, less than what was sent has been received
    by_contra hgt
    have hle : (d ++ S.separator).length ≤ cs.flatten.length := by
      rw [List.length_append]; omega
    rw [List.flatten_append] at hcut
    obtain ⟨t, ht⟩ := List.prefix_of_prefix_length_le (hcut ▸ List.prefix_append _ T)
      (List.prefix_append cs.flatten _) hle
    rw [← ht, find_append_of_some h S.separator_ne] at h1; cases h1
  have hret := frame_after_some h1 hcslen h2 (by omega)
  have hle := find_le h2 S.separator_ne
  have hpre : d ++ S.separator <+: (cs ++ [c]).flatten := by
    refine List.prefix_of_prefix_length_le (hcut ▸ List.prefix_append _ T) ?_
      (by rw [List.length_append]; exact hle)
    rw [List.flatten_concat, List.flatten_append, List.flatten_cons, ← List.append_assoc]
    exact List.prefix_append _ _
  have hdata : (cs ++ [c]).flatten.take d.length = d := by
    obtain ⟨t, ht⟩ := hpre
    rw [← ht, List.append_assoc, List.take_left]
  rw [hdata] at hret
  refine ⟨cs.length + 1, by rwa [htake], ?_, ?_⟩
  · rw [htake, hret, List.length_append]
  · rw [htake, incrementalDeserialize, Generator.after_finish, hret, Option.map_some,
      Resumed.finish_returned, List.length_append]
    simp only
    cases S.verdict d <;> rfl

/-- What is decoded is what stands before the first separator of what was sent. -/
theorem DecodesTo.find {d data : Bytes} {chunks : List Bytes}
    (h : S.DecodesTo (d ++ S.separator) data chunks) :
    ∃ i ≤ d.length, Search.find S.separator (d ++ S.separator) = some i ∧ data = d.take i := by
  obtain ⟨k, ⟨t, ht⟩, hret, -⟩ := h
  obtain ⟨i, hi, hd, -⟩ := frame_after_returned hret
  have hocc := occursAt_append_self S.separator d
  obtain ⟨j, hj⟩ : ∃ j, Search.find S.separator (d ++ S.separator) = some j := by
    refine Option.ne_none_iff_exists'.1 fun hn => ?_
    exact find_eq_none_iff.1 hn d.length (by rw [List.length_append]; omega) hocc
  have hjd : j ≤ d.length := by
    by_contra hgt
    exact (find_eq_some_iff.1 hj).2.1 d.length (by omega) hocc
  rw [← ht] at hi hd
  obtain rfl : j = i := Option.some.inj ((find_append_of_some hj S.separator_ne t).symm.trans hi)
  refine ⟨j, hjd, hj, ?_⟩
  rw [hd, List.append_assoc, List.take_append_of_le_length hjd]

/-- **Exactly the data that does not end in a period of the separator is decoded as it was
    encoded**, whatever follows and however it is cut. -/
theorem decodes_iff (hcheck : S.incrementalSerializeCheckSeparator = true) {p : P} {data W : Bytes}
    (hser : S.serialize p = .ok data) (hW : S.incrementalSerialize p = .ok [W])
    (hlim : W.length < S.limit) (T : Bytes) (chunks : List Bytes) (hcut : chunks.flatten = W ++ T) :
    S.DecodesTo W (removeSeparators S.separator data) chunks ↔
      ¬ EndsInPeriod S.separator (removeSeparators S.separator data) := by
  obtain ⟨rfl, hnot⟩ := incrementalSerialize_ok hcheck hser hW
  set d := removeSeparators S.separator data
  rw [← find_append_separator hnot]
  constructor
  · intro h
    obtain ⟨i, hi, hfind, hd⟩ := h.find
    have hlen : d.length = i := by
      rw [hd, List.length_take]; omega
    rw [hfind, hlen]
  · intro h
    exact decodesTo_of_find h hlim hcut

/-- A serializer of byte strings as they are. -/
def raw (separator : Bytes) (limit : ℕ) (hs : separator ≠ []) (hl : 0 < limit) :
    AutoSeparatedPacketSerializer Bytes Unit where
  separator := separator
  limit := limit
  incrementalSerializeCheckSeparator := true
  serialize := .ok
  deserialize := .ok
  separator_ne := hs
  limit_pos := hl

/-- The line `x` is decoded from `x\r\n` followed by another line, cut within the separator. -/
theorem decodes_crlf :
    (raw [13, 10] 16 (by decide) (by decide)).DecodesTo [120, 13, 10] [120]
      [[120, 13], [10, 121, 13, 10]] := by
  have hs : removeSeparators [13, 10] [120] = [120] := removeSeparators_of_not_suffix (by decide)
  have hW : (raw [13, 10] 16 (by decide) (by decide)).incrementalSerialize [120] =
      .ok [[120, 13, 10]] := by
    simp only [incrementalSerialize, raw, hs]; decide
  have h := decodes_iff (S := raw [13, 10] 16 (by decide) (by decide)) rfl (p := [120]) rfl hW
    (by decide) [121, 13, 10] [[120, 13], [10, 121, 13, 10]] rfl
  have hs' : removeSeparators (raw [13, 10] 16 (by decide) (by decide)).separator [120] = [120] := hs
  rw [hs'] at h
  refine h.2 ?_
  rintro ⟨m, h1, h2, -, h4⟩
  have hm : m = 1 := by simp only [raw, List.length_cons, List.length_nil] at h2; omega
  subst hm
  revert h4; decide

/-- With the separator `aa`, the packet `xa` is sent as `xaaa` and decoded as `x`. -/
theorem not_decodes_overlap :
    (raw [97, 97] 16 (by decide) (by decide)).incrementalSerialize [120, 97] =
        .ok [[120, 97, 97, 97]] ∧
      removeSeparators [97, 97] [120, 97] = [120, 97] ∧
      (raw [97, 97] 16 (by decide) (by decide)).frame.after [[120, 97, 97, 97]] =
        some (.returned ([120], [97])) ∧
      ¬ (raw [97, 97] 16 (by decide) (by decide)).DecodesTo [120, 97, 97, 97] [120, 97]
        [[120, 97, 97, 97]] := by
  have hs : removeSeparators [97, 97] [120, 97] = [120, 97] :=
    removeSeparators_of_not_suffix (by decide)
  refine ⟨by simp only [incrementalSerialize, raw, hs]; decide, hs, by decide, ?_⟩
  rintro ⟨k, hpre, hret, -⟩
  rcases k with _ | k
  · revert hpre; decide
  · rw [List.take_succ_cons, List.take_nil] at hret
    revert hret; decide

end AutoSeparatedPacketSerializer

/-! ## `_buffered_readuntil` after any reads -/

/-- What is known of `_buffered_readuntil` between two reads: it has received the bytes of the
    reads, they are the beginning of the buffer, and the rest of the buffer is as it was. -/
structure BufferedReaduntil.Inv (sep buf₀ : Bytes) (reads : List Bytes) (s : BufferedReaduntil)
    (start : ℕ) (buf : Bytes) : Prop where
  has : s.Has sep reads.flatten
  start : start = reads.flatten.length
  length : buf.length = buf₀.length
  received : buf.take reads.flatten.length = reads.flatten
  stale : buf.drop reads.flatten.length = buf₀.drop reads.flatten.length

section
variable {ι : Type} {sep buf₀ : Bytes}

theorem BufferedReaduntil.Inv.write {reads : List Bytes} {s : BufferedReaduntil} {start : ℕ}
    {buf d : Bytes} (h : BufferedReaduntil.Inv sep buf₀ reads s start buf)
    (hd : start + d.length ≤ buf.length) :
    (writeAt buf start d).length = buf₀.length ∧
      (writeAt buf start d).take (reads.flatten ++ d).length = reads.flatten ++ d ∧
      (writeAt buf start d).drop (reads.flatten ++ d).length =
        buf₀.drop (reads.flatten ++ d).length := by
  obtain ⟨-, rfl, hl, hr, hst⟩ := h
  refine ⟨(length_writeAt hd).trans hl, ?_, ?_⟩
  · rw [List.length_append, take_writeAt hd, hr]
  · rw [List.length_append, drop_writeAt hd, ← List.drop_drop, hst, List.drop_drop]

/-- **How `_buffered_readuntil` raises**: the separator has not been received and at most one byte
    of the buffer has not been written. -/
theorem bufferedReaduntil_after_raised (hsep : sep ≠ []) {reads : List Bytes} {buf : Bytes}
    {e : IncrementalDeserializeError ι}
    (h : (bufferedReaduntil sep).after buf₀ reads = some (buf, .raised e)) :
    find sep reads.flatten = none ∧ sep.length ≤ reads.flatten.length ∧
      reads.flatten.length ≤ buf₀.length ∧ buf₀.length ≤ reads.flatten.length + 1 ∧
      buf = reads.flatten ++ buf₀.drop reads.flatten.length ∧
      e.remainingData = LimitOverrunError.remainingData buf
        (reads.flatten.length + 1 - sep.length) sep := by
  have hrule := BufferGenerator.after_inv (G := (bufferedReaduntil sep :
      BufferGenerator _ _ _ (IncrementalDeserializeError ι))) (BufferedReaduntil.Inv sep buf₀)
    (P := fun reads br => ∀ e, br.2 = .raised e → find sep reads.flatten = none ∧
      sep.length ≤ reads.flatten.length ∧ reads.flatten.length ≤ buf₀.length ∧
      buf₀.length ≤ reads.flatten.length + 1 ∧
      br.1 = reads.flatten ++ buf₀.drop reads.flatten.length ∧
      e.remainingData = LimitOverrunError.remainingData br.1
        (reads.flatten.length + 1 - sep.length) sep)
    (fun s y hs => by cases hs; exact ⟨rfl, rfl, rfl, rfl, rfl⟩)
    (fun e he => by cases he)
    (fun reads s n buf d hi hd => ?_)
  · exact (hrule reads _ h).1 e rfl
  · obtain ⟨h1, h2, h3⟩ := hi.write hd
    rw [List.flatten_concat]
    have hle : (reads.flatten ++ d).length ≤ buf₀.length := by
      rw [← h1, length_writeAt hd, List.length_append, ← hi.start]; exact hd
    rcases hf : find sep (reads.flatten ++ d) with _ | i
    · rcases bufferedReaduntil_send_none hsep hi.has h2 hf (ι := ι) with
        ⟨s', h4, h5⟩ | ⟨h4, h5, h6⟩
      · rw [h4]
        refine ⟨fun e he => (nomatch he), fun s'' y hy => ?_⟩
        cases hy
        rw [← List.flatten_concat] at *
        exact ⟨h5, rfl, h1, h2, h3⟩
      · rw [h6]
        refine ⟨fun e he => ?_, fun s'' y hy => (nomatch hy)⟩
        cases he
        refine ⟨rfl, h5, hle, h1 ▸ h4, ?_, rfl⟩
        have := List.take_append_drop (reads.flatten ++ d).length (writeAt buf n d)
        rw [h2, h3] at this; exact this.symm
    · rw [bufferedReaduntil_send_some hsep hi.has h2 hf]
      exact ⟨fun e he => (nomatch he), fun s'' y hy => (nomatch hy)⟩

theorem remainingData_full {b : Bytes} (hsep : sep ≠ []) (hb : sep.length ≤ b.length) :
    LimitOverrunError.remainingData b (b.length + 1 - sep.length) sep = overlap sep b := by
  have hlen : (b.drop (b.length + 1 - sep.length)).length + 1 = sep.length := by
    have := List.length_pos_iff.2 hsep
    rw [List.length_drop]; omega
  rw [LimitOverrunError.remainingData_eq_overlap hsep (by omega),
    if_neg fun he => by rw [he] at hlen; omega, overlap_drop hlen.ge]

/-- What the error keeps when one byte of the buffer is stale. -/
theorem remainingData_stale_iff {b : Bytes} {x : UInt8} (hsep : sep ≠ [])
    (hb : sep.length ≤ b.length) :
    LimitOverrunError.remainingData (b ++ [x]) (b.length + 1 - sep.length) sep = overlap sep b ↔
      sep.length = 1 ∨
        (∀ y ∈ overlap sep b, y = x) ∧ sep[(overlap sep b).length]? ≠ some x := by
  have hpos := List.length_pos_iff.2 hsep
  obtain ⟨u, hu⟩ : ∃ u, u = b.drop (b.length + 1 - sep.length) := ⟨_, rfl⟩
  have hul : u.length + 1 = sep.length := by rw [hu, List.length_drop]; omega
  have hov : overlap sep b = overlap sep u := by rw [hu]; exact (overlap_drop (hu ▸ hul.ge)).symm
  have hdrop : (b ++ [x]).drop (b.length + 1 - sep.length) = u ++ [x] := by
    rw [List.drop_append_of_le_length (by omega), hu]
  rw [LimitOverrunError.remainingData_eq_overlap hsep (by
    rw [List.length_append, List.length_singleton]; omega), hdrop, hov]
  split_ifs with he
  · -- the stale byte completes a separator, which is dropped
    have hself : overlap sep u = u := by
      refine ((overlap_suffix sep u).eq_of_length (le_antisymm (overlap_suffix sep u).length_le ?_))
      exact length_le_overlap List.suffix_rfl (he ▸ List.prefix_append u [x]) (by omega)
    rw [hself]
    constructor
    · intro h; rw [← h] at hul; exact Or.inl (by simpa using hul.symm)
    · rintro (h | ⟨-, h⟩)
      · exact (List.eq_nil_of_length_eq_zero (by omega)).symm
      · rw [← he] at h; simp at h
  · rw [overlap_concat_eq_iff u x hsep]
    have hlt := overlap_length_lt hsep u
    constructor
    · rintro ⟨h1, h2⟩
      refine Or.inr ⟨h1, fun hx => he ?_⟩
      have hfull := h2 hx
      have heq : overlap sep u = u := (overlap_suffix sep u).eq_of_length (by omega)
      have hpre := prefix_concat_of_getElem? (overlap_isPrefix sep u) hx
      rw [heq] at hpre
      exact hpre.eq_of_length (by rw [List.length_append, List.length_singleton]; omega)
    · rintro (h | ⟨h1, h2⟩)
      · have hnil : overlap sep u = [] := List.eq_nil_of_length_eq_zero (by omega)
        rw [hnil]
        exact ⟨fun y hy => (nomatch hy), fun _ => h.symm⟩
      · exact ⟨h1, fun hx => absurd hx h2⟩

/-- **Resynchronisation of `_buffered_readuntil`.**  After a `LimitOverrunError`, the remaining data
    is what may begin a separator (and then nothing of the stream is missed) iff all of the buffer
    has been received, or the separator is a single byte, or the stale byte at the end of the
    buffer neither continues what may begin a separator nor differs from one of its bytes. -/
theorem bufferedReaduntil_limitOverrun_iff (hsep : sep ≠ []) {reads : List Bytes} {buf : Bytes}
    {e : IncrementalDeserializeError ι}
    (h : (bufferedReaduntil sep).after buf₀ reads = some (buf, .raised e)) :
    (e.remainingData = overlap sep (buf.take reads.flatten.length) ∧
        ∀ F, find sep (reads.flatten ++ F) = (find sep (e.remainingData ++ F)).map
          (reads.flatten.length - e.remainingData.length + ·)) ↔
      reads.flatten.length = buf₀.length ∨ sep.length = 1 ∨
        ∃ x, buf₀.getLast? = some x ∧ (∀ y ∈ overlap sep reads.flatten, y = x) ∧
          sep[(overlap sep reads.flatten).length]? ≠ some x := by
  obtain ⟨hn, hs, hle, hge, rfl, hrem⟩ := bufferedReaduntil_after_raised hsep h
  rw [List.take_left]
  have hfst : (e.remainingData = overlap sep reads.flatten ∧
      ∀ F, find sep (reads.flatten ++ F) = (find sep (e.remainingData ++ F)).map
        (reads.flatten.length - e.remainingData.length + ·)) ↔
      e.remainingData = overlap sep reads.flatten :=
    ⟨And.left, fun he => ⟨he, fun F => by rw [he]; exact find_append_overlap hn hsep F⟩⟩
  rw [hfst, hrem]
  rcases Nat.lt_or_ge reads.flatten.length buf₀.length with hlt | hfull
  · -- one stale byte
    rcases List.eq_nil_or_concat buf₀ with rfl | ⟨init, x, rfl⟩
    · simp at hlt
    rw [List.concat_eq_append, List.length_append, List.length_singleton] at hlt hge
    have hlen : reads.flatten.length = init.length := by omega
    have hne : reads.flatten.length ≠ (init ++ [x]).length := by
      rw [List.length_append, List.length_singleton]; omega
    rw [List.concat_eq_append, hlen, List.drop_left, ← hlen, remainingData_stale_iff hsep hs,
      List.getLast?_concat]
    simp only [hne, false_or, Option.some.injEq, exists_eq_left']
  · rw [List.drop_eq_nil_of_le hfull, List.append_nil, remainingData_full hsep hs]
    exact iff_of_true rfl (Or.inl (by omega))

/-- With one byte of the buffer left, the CR that was received last is forgotten. -/
theorem bufferedReaduntil_forgets_cr :
    ∃ e : IncrementalDeserializeError Unit,
      (bufferedReaduntil [13, 10]).after [0, 0, 0, 0] [[120, 120], [13]] =
        some ([120, 120, 13, 0], .raised e) ∧
      e.remainingData = [] ∧ overlap [13, 10] [120, 120, 13] = [13] ∧
      find [13, 10] ([120, 120, 13] ++ [10]) = some 2 ∧
      find [13, 10] (e.remainingData ++ [10]) = none := by
  refine ⟨⟨.limitOverrun "Separator is not found, and chunk exceed the limit" 2, []⟩, ?_⟩
  decide

theorem bufferedReaduntil_keeps_cr :
    ∃ e : IncrementalDeserializeError Unit,
      (bufferedReaduntil [13, 10]).after [0, 0, 0, 0] [[120, 120], [120, 13]] =
        some ([120, 120, 120, 13], .raised e) ∧
      e.remainingData = overlap [13, 10] [120, 120, 120, 13] := by
  have h : (bufferedReaduntil [13, 10]).after [0, 0, 0, 0] [[120, 120], [120, 13]] =
      some ([120, 120, 120, 13], .raised (⟨.limitOverrun
        "Separator is not found, and chunk exceed the limit" 3, [13]⟩ :
          IncrementalDeserializeError Unit)) := by decide
  exact ⟨_, h, ((bufferedReaduntil_limitOverrun_iff (by decide) h).2 (Or.inl rfl)).1⟩

end

end EasyNetwork
