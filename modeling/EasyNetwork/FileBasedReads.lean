/-
  What `__generic_incremental_deserialize` makes of the chunks that it receives.

  * `seesReceived_iff`: `load_from_file` is called on the chunks that have been received iff it has
    read the file to its end whenever it raised `EOFError`.
  * `delivers_iff`: packets that have at most `limit` bytes each are delivered iff what a packet leaves
    of the reads has at most `limit` bytes together with the next read.
-/
import EasyNetwork.Delivery
import EasyNetwork.FileBasedDelivery

namespace EasyNetwork

open Coroutine

/-! ## The file -/

namespace BytesIO

theorem write_nil (file : BytesIO) : file.write [] = file := if_pos rfl

/-- At the end of the file, the chunk is appended. -/
theorem write_of_pos {file : BytesIO} (h : file.pos = file.value.length) (chunk : Bytes) :
    (file.write chunk).value = file.value ++ chunk := by
  by_cases hnil : chunk = []
  · rw [hnil, write_nil, List.append_nil]
  · rw [write, if_neg hnil]
    simp only [h, Nat.sub_self, List.replicate_zero, List.append_nil, writeAt, List.take_length]
    rw [List.drop_eq_nil_of_le (Nat.le_add_right _ _), List.append_nil]

theorem length_write (file : BytesIO) {chunk : Bytes} (hne : chunk ≠ []) :
    (file.write chunk).value.length = max file.value.length (file.pos + chunk.length) := by
  rw [write, if_neg hne]
  simp only [writeAt, List.length_append, List.length_take, List.length_drop, List.length_replicate]
  omega

/-- **The chunk is appended at the end of the file only.** -/
theorem write_value_iff (file : BytesIO) (chunk : Bytes) :
    (file.write chunk).value = file.value ++ chunk ↔ chunk = [] ∨ file.pos = file.value.length := by
  constructor
  · intro h
    by_cases hne : chunk = []
    · exact Or.inl hne
    · have hlen := congrArg List.length h
      rw [length_write file hne, List.length_append] at hlen
      have hpos := List.length_pos_iff.2 hne
      exact Or.inr (by omega)
  · rintro (rfl | h)
    · rw [write_nil, List.append_nil]
    · exact write_of_pos h chunk

end BytesIO

namespace FileBasedPacketSerializer

variable {P : Type} {S : FileBasedPacketSerializer P} {chunks : List Bytes} {c : Bytes}
  {s : Suspended}

section
variable (S) (chunks : List Bytes)

/-- Every chunk leads to a call of `load_from_file` on what has been received, from its start: as
    long as the generator waits for the next chunk, this is the file on which it goes on. -/
def SeesReceived : Prop :=
  ∀ pre c, pre ++ [c] <+: chunks → ∀ s, S.incrementalDeserialize.after pre = some (.yielded s ()) →
    received s c = ⟨(pre ++ [c]).flatten, 0⟩

/-- `load_from_file` raises `EOFError` on what has been received after each of the chunks. -/
def Waits : Prop := ∀ cs, cs ≠ [] → cs <+: chunks → ∃ pos, S.loadFromFile cs.flatten = .eofError pos

/-- Whenever `load_from_file` has raised `EOFError` on what has been received, and a chunk follows that
    is not empty, it has left the file at its end. -/
def ReadsToEnd : Prop :=
  ∀ pre c, pre ++ [c] <+: chunks → pre ≠ [] → c ≠ [] → S.Waits pre →
    S.loadFromFile pre.flatten = .eofError pre.flatten.length

/-- The state after chunks on all of which `load_from_file` has raised `EOFError`. -/
def held : Suspended :=
  if chunks = [] then none
  else match S.loadFromFile chunks.flatten with
    | .eofError pos => some ⟨chunks.flatten, pos⟩
    | .returned _ _ | .expectedError _ _ => none

end

theorem waits_concat : S.Waits (chunks ++ [c]) ↔
    S.Waits chunks ∧ ∃ pos, S.loadFromFile (chunks ++ [c]).flatten = .eofError pos := by
  constructor
  · intro h
    exact ⟨fun cs hne hcs => h cs hne (hcs.trans (List.prefix_append _ _)),
      h _ (by simp) List.prefix_rfl⟩
  · rintro ⟨h, hlast⟩ cs hne hcs
    rcases List.prefix_concat_iff.1 hcs with rfl | hcs
    · exact hlast
    · exact h cs hne hcs

/-- What holds of every chunk and of those before it. -/
theorem forall_prefix_concat {p : List Bytes → Bytes → Prop} :
    (∀ pre d, pre ++ [d] <+: chunks ++ [c] → p pre d) ↔
      (∀ pre d, pre ++ [d] <+: chunks → p pre d) ∧ p chunks c := by
  constructor
  · intro h
    exact ⟨fun pre d hpre => h pre d (hpre.trans (List.prefix_append _ _)),
      h chunks c List.prefix_rfl⟩
  · rintro ⟨h, hlast⟩ pre d hpre
    rcases List.prefix_concat_iff.1 hpre with heq | hpre
    · obtain ⟨rfl, hd⟩ := List.append_inj' heq rfl
      cases hd
      exact hlast
    · exact h pre d hpre

theorem seesReceived_concat : S.SeesReceived (chunks ++ [c]) ↔ S.SeesReceived chunks ∧
    ∀ s, S.incrementalDeserialize.after chunks = some (.yielded s ()) →
      received s c = ⟨(chunks ++ [c]).flatten, 0⟩ :=
  forall_prefix_concat

theorem readsToEnd_concat : S.ReadsToEnd (chunks ++ [c]) ↔ S.ReadsToEnd chunks ∧
    (chunks ≠ [] → c ≠ [] → S.Waits chunks →
      S.loadFromFile chunks.flatten = .eofError chunks.flatten.length) :=
  forall_prefix_concat

/-- Within the limit, a round suspends iff `load_from_file` raises `EOFError`. -/
theorem load_yielded_iff {file : BytesIO} (hlimit : file.value.length ≤ S.limit) :
    S.load file () = .yielded s () ↔
      ∃ pos, S.loadFromFile file.value = .eofError pos ∧ s = some { file with pos := pos } := by
  rw [load, if_neg (Nat.not_lt.2 hlimit)]
  cases S.loadFromFile file.value with
  | eofError pos => simp [eq_comm]
  | expectedError exc pos => simp
  | returned packet pos => simp

/-- **What the generator holds** as long as `load_from_file` has seen what has been received. -/
theorem after_yielded_iff (hsees : S.SeesReceived chunks) (hlimit : chunks.flatten.length ≤ S.limit) :
    S.incrementalDeserialize.after chunks = some (.yielded s ()) ↔
      S.Waits chunks ∧ s = S.held chunks := by
  induction chunks using List.reverseRecOn generalizing s with
  | nil =>
    have hwaits : S.Waits [] := fun cs hne hcs => absurd (List.prefix_nil.1 hcs) hne
    have hheld : S.held [] = none := if_pos rfl
    simp only [hwaits, hheld, true_and, Generator.after, Generator.sendAll, incrementalDeserialize,
      Option.some.injEq, Resumed.yielded.injEq, and_true, eq_comm]
  | append_singleton chunks c ih =>
    obtain ⟨hsees, hlast⟩ := seesReceived_concat.1 hsees
    rw [List.flatten_concat, List.length_append] at hlimit
    have ih := fun s => ih (s := s) hsees (by omega)
    rw [Generator.after_concat, Option.bind_eq_some_iff, waits_concat]
    constructor
    · rintro ⟨r, hr, hsend⟩
      rcases r with ⟨s₀, ⟨⟩⟩ | _ | _
      · have hfile := hlast s₀ hr
        have hload : S.load (received s₀ c) () = .yielded s () := Option.some.inj hsend
        rw [hfile, load_yielded_iff (by simpa using hlimit)] at hload
        obtain ⟨pos, heof, rfl⟩ := hload
        refine ⟨⟨((ih s₀).1 hr).1, pos, heof⟩, ?_⟩
        simp only [held, List.append_eq_nil_iff, List.cons_ne_nil, and_false, if_false, heof]
      · cases hsend
      · cases hsend
    · rintro ⟨⟨hwaits, pos, heof⟩, rfl⟩
      have hr := (ih _).2 ⟨hwaits, rfl⟩
      refine ⟨_, hr, congrArg some ?_⟩
      change S.load (received (S.held chunks) c) () = _
      rw [hlast _ hr, load_yielded_iff (by simpa using hlimit)]
      refine ⟨pos, heof, ?_⟩
      simp only [held, List.append_eq_nil_iff, List.cons_ne_nil, and_false, if_false, heof]

/-- The next file, after chunks on all of which `load_from_file` has raised `EOFError`. -/
theorem received_held_iff (hwaits : S.Waits chunks) :
    received (S.held chunks) c = ⟨(chunks ++ [c]).flatten, 0⟩ ↔ (chunks ≠ [] → c ≠ [] →
      S.loadFromFile chunks.flatten = .eofError chunks.flatten.length) := by
  by_cases hnil : chunks = []
  · subst hnil
    simp [held, received]
  · obtain ⟨pos, heof⟩ := hwaits chunks hnil List.prefix_rfl
    have hheld : S.held chunks = some ⟨chunks.flatten, pos⟩ := by
      rw [held, if_neg hnil, heof]
    have hwrite := BytesIO.write_value_iff ⟨chunks.flatten, pos⟩ c
    simp only [hheld, received, BytesIO.rewind, BytesIO.mk.injEq, and_true, List.flatten_concat,
      hwrite, ne_eq, hnil, not_false_eq_true, forall_const, heof, Load.eofError.injEq]
    exact or_iff_not_imp_left

/-- **`load_from_file` sees the stream as it was received iff it leaves the file at its end whenever it
    raises `EOFError`.** -/
theorem seesReceived_iff (S : FileBasedPacketSerializer P) {chunks : List Bytes}
    (hlimit : chunks.flatten.length ≤ S.limit) : S.SeesReceived chunks ↔ S.ReadsToEnd chunks := by
  induction chunks using List.reverseRecOn with
  | nil =>
    refine iff_of_true (fun pre c h => ?_) fun pre c h => ?_ <;> simp at h
  | append_singleton chunks c ih =>
    rw [List.flatten_concat, List.length_append] at hlimit
    rw [seesReceived_concat, readsToEnd_concat, ← ih (by omega)]
    refine and_congr_right fun hsees => ?_
    have hafter := fun s => after_yielded_iff (s := s) hsees (by omega)
    constructor
    · intro h hne hc hwaits
      exact (received_held_iff hwaits).1 (h _ ((hafter _).2 ⟨hwaits, rfl⟩)) hne hc
    · intro h s hs
      obtain ⟨hwaits, rfl⟩ := (hafter s).1 hs
      exact (received_held_iff hwaits).2 fun hne hc => h hne hc hwaits

/-- The packets of two bytes are read to the end of the file. -/
theorem seesReceived_two : twoBytes.SeesReceived [[1], [2], [3]] := by
  refine (seesReceived_iff twoBytes (by decide)).2 fun pre c _ hne _ hwaits => ?_
  obtain ⟨pos, heof⟩ := hwaits pre hne List.prefix_rfl
  rw [heof]
  unfold twoBytes at heof
  simp only at heof
  split at heof
  · cases heof
  · cases heof
    rfl

/-- Packets after their length.  As long as bytes are missing, only the length is read. -/
def lengthPrefixed : FileBasedPacketSerializer Bytes where
  loadFromFile
    | [] => .eofError 0
    | n :: rest =>
      if rest.length < n.toNat then .eofError 1
      else .returned (rest.take n.toNat) (1 + n.toNat)
  limit := 7
  debug := false
  limit_pos := Nat.zero_lt_succ 6

/-- The second chunk overwrites what came after the length. -/
theorem lengthPrefixed_overwrites :
    lengthPrefixed.incrementalDeserialize.after [[2, 10]] =
        some (.yielded (some ⟨[2, 10], 1⟩) ()) ∧
      received (some ⟨[2, 10], 1⟩) [11] = ⟨[2, 11], 0⟩ ∧
      ¬ lengthPrefixed.SeesReceived [[2, 10], [11]] := by
  have hafter : lengthPrefixed.incrementalDeserialize.after [[2, 10]] =
      some (.yielded (some ⟨[2, 10], 1⟩) ()) := by decide
  refine ⟨hafter, by decide, fun h => ?_⟩
  have hfile := h [[2, 10]] [11] List.prefix_rfl _ hafter
  revert hfile
  decide

/-! ## Packets within the limit -/

/-- A packet in the bytes from which `load_from_file` reads it: as long as bytes are missing, it
    raises `EOFError` at the end of the file, and then it returns the packet, and nothing is read of
    what follows. -/
structure Encoded (S : FileBasedPacketSerializer P) where
  packet : P
  bytes : Bytes
  eof : ∀ b, b <+: bytes → b ≠ bytes → S.loadFromFile b = .eofError b.length
  returned : ∀ t, S.loadFromFile (bytes ++ t) = .returned packet bytes.length

/-- The bytes of the packets. -/
def Encoded.flatten (sent : List S.Encoded) : Bytes := (sent.map Encoded.bytes).flatten

/-- The packets that these bytes do not complete, and what has been received of the first of them. -/
def pending : List S.Encoded → Bytes → List S.Encoded × Bytes
  | [], b => ([], b)
  | e :: sent, b =>
    if e.bytes.length ≤ b.length then pending sent (b.drop e.bytes.length) else (e :: sent, b)

/-- Before each read, what has been received of the next packet has at most `limit` bytes together
    with the read. -/
def FitsLimit (sent : List S.Encoded) (reads : List Bytes) : Prop :=
  ∀ pre c, pre ++ [c] <+: reads → ((pending sent pre.flatten).2 ++ c).length ≤ S.limit

section
variable {sent : List S.Encoded} {e : S.Encoded} {b t : Bytes} {reads : List Bytes}
  {converter : Converter P Bytes} {st : StreamDataConsumer Suspended}

theorem Encoded.flatten_cons : Encoded.flatten (e :: sent) = e.bytes ++ Encoded.flatten sent := rfl

theorem pending_append (sent : List S.Encoded) (b t : Bytes) :
    pending sent (b ++ t) = pending (pending sent b).1 ((pending sent b).2 ++ t) := by
  induction sent generalizing b with
  | nil => rfl
  | cons e sent ih =>
    by_cases hle : e.bytes.length ≤ b.length
    · have hle' : e.bytes.length ≤ (b ++ t).length := by
        rw [List.length_append]
        omega
      simp only [pending, if_pos hle, if_pos hle', List.drop_append_of_le_length hle]
      exact ih _
    · simp only [pending, if_neg hle]

theorem pending_nil (hne : ∀ e ∈ sent, e.bytes ≠ []) : pending sent [] = (sent, []) := by
  cases sent with
  | nil => rfl
  | cons e sent =>
    have hpos := List.length_pos_iff.2 (hne e List.mem_cons_self)
    exact if_neg (by simpa using hne e List.mem_cons_self)

/-- What is pending, with what is still to come, is the rest of the stream. -/
theorem append_pending (hcut : b ++ t = Encoded.flatten sent) :
    (pending sent b).2 ++ t = Encoded.flatten (pending sent b).1 := by
  induction sent generalizing b with
  | nil => exact hcut
  | cons e sent ih =>
    by_cases hle : e.bytes.length ≤ b.length
    · simp only [pending, if_pos hle]
      refine ih ?_
      rw [Encoded.flatten_cons] at hcut
      have hdrop := congrArg (List.drop e.bytes.length) hcut
      rwa [List.drop_append_of_le_length hle, List.drop_left] at hdrop
    · simp only [pending, if_neg hle]
      exact hcut

/-- What is pending completes no packet. -/
theorem pending_pending (sent : List S.Encoded) (b : Bytes) :
    pending (pending sent b).1 (pending sent b).2 = pending sent b := by
  have h := pending_append sent b []
  rwa [List.append_nil, List.append_nil, eq_comm] at h

theorem length_pending_le (sent : List S.Encoded) (b : Bytes) :
    (pending sent b).2.length ≤ b.length := by
  induction sent generalizing b with
  | nil => exact Nat.le_refl _
  | cons e sent ih =>
    unfold pending
    split_ifs
    · refine (ih _).trans ?_
      rw [List.length_drop]
      omega
    · exact Nat.le_refl _

theorem pending_suffix (sent : List S.Encoded) (b : Bytes) : (pending sent b).1 <:+ sent := by
  induction sent generalizing b with
  | nil => exact List.suffix_rfl
  | cons e sent ih =>
    unfold pending
    split_ifs
    · exact (ih _).trans (List.suffix_cons e sent)
    · exact List.suffix_rfl

/-- At the end of the stream, nothing is pending. -/
theorem eq_nil_of_pending (hpending : pending sent b = (sent, b)) (hcut : b = Encoded.flatten sent) :
    sent = [] := by
  cases sent with
  | nil => rfl
  | cons e sent =>
    have hle : e.bytes.length ≤ b.length := by
      rw [hcut, Encoded.flatten_cons, List.length_append]
      omega
    have hlen := (pending_suffix sent (b.drop e.bytes.length)).length_le
    rw [pending, if_pos hle] at hpending
    rw [hpending, List.length_cons] at hlen
    omega

/-! ### The rounds -/

/-- The consumer that has received `b` of the next packet. -/
def waiting (b : Bytes) : StreamDataConsumer Suspended :=
  ⟨[], if b = [] then none else some (some ⟨b, b.length⟩)⟩

/-- The next file of a waiting consumer: what has been received, and the read. -/
theorem received_waiting (b c : Bytes) : received (waiting b).consumer.join c = ⟨b ++ c, 0⟩ := by
  by_cases hb : b = []
  · subst hb
    rfl
  · have hwrite := BytesIO.write_of_pos (show (⟨b, b.length⟩ : BytesIO).pos = b.length from rfl) c
    simp only [waiting, if_neg hb, Option.join_some, received, BytesIO.rewind, hwrite]

theorem Round.plain_ended (verdict : Verdict P Bytes) (remainder : Bytes) :
    (Round.ended verdict remainder).plain = (verdict.result remainder, ⟨remainder, none⟩) := by
  cases verdict <;> rfl

theorem waiting_next (b : Bytes) {c : Bytes} (hc : c ≠ []) :
    StreamDataConsumer.next (S.protocol converter) (waiting b) (some c) =
      (S.round converter ⟨b ++ c, 0⟩).plain := by
  rw [plain_next, received_waiting]
  exact if_neg (by simpa [waiting] using hc)

theorem waiting_drained (b : Bytes) :
    StreamDataConsumer.Drained (S.protocol converter) (waiting b) [] (waiting b) := by
  refine .stop ?_
  rw [plain_next]
  exact if_pos rfl

/-- The bytes of a packet, and what follows them. -/
theorem round_complete (hlimit : (e.bytes ++ t).length ≤ S.limit) :
    S.round converter ⟨e.bytes ++ t, 0⟩ = .ended (Verdict.convert converter (.ok e.packet)) t := by
  rw [round, if_neg (Nat.not_lt.2 hlimit)]
  simp only [e.returned, List.drop_left]

/-- The beginning of a packet. -/
theorem round_waiting (hb : b <+: e.bytes) (hlt : b.length < e.bytes.length)
    (hlimit : b.length ≤ S.limit) : S.round converter ⟨b, 0⟩ = .suspended ⟨b, b.length⟩ := by
  rw [round, if_neg (Nat.not_lt.2 hlimit)]
  simp only [e.eof b hb fun h => Nat.ne_of_lt hlt (congrArg List.length h)]

/-- A read that makes the file too long, whatever packets it completes. -/
theorem round_overrun (hlimit : S.limit < b.length) : S.round converter ⟨b, 0⟩ =
    .ended (.error (.limitOverrun "chunk exceeded buffer limit" b.length)) [] := if_pos hlimit

theorem convert_ne_limitOverrun (packet : P) (message : String) (consumed : ℕ) :
    Verdict.convert converter (.ok packet) ≠ .error (.limitOverrun message consumed) := by
  intro h
  cases converter with
  | none => cases h
  | some createFromDtoPacket =>
    simp only [Verdict.convert] at h
    split at h <;> cases h

/-- The beginning of the stream has the first packet, or is a beginning of it. -/
theorem split_first (hcut : b ++ t = Encoded.flatten (e :: sent)) :
    (e.bytes.length ≤ b.length → ∃ r, b = e.bytes ++ r ∧ r ++ t = Encoded.flatten sent) ∧
      (b.length < e.bytes.length → b <+: e.bytes) := by
  rw [Encoded.flatten_cons] at hcut
  constructor
  · intro hle
    have hpre : e.bytes <+: b :=
      List.prefix_of_prefix_length_le (hcut ▸ List.prefix_append _ _) (List.prefix_append b t) hle
    obtain ⟨r, rfl⟩ := hpre
    rw [List.append_assoc] at hcut
    exact ⟨r, rfl, List.append_cancel_left hcut⟩
  · intro hlt
    exact List.prefix_of_prefix_length_le (hcut ▸ List.prefix_append b t) (List.prefix_append _ _)
      hlt.le

variable (converter) in
/-- What the consumer gives for a packet. -/
def Encoded.verdict (e : S.Encoded) : Verdict P Bytes := Verdict.convert converter (.ok e.packet)

variable (converter) in
/-- `next(None)` until `StopIteration` gives the packets that what is left of a read completes. -/
theorem drained_pending (hne : ∀ e ∈ sent, e.bytes ≠ []) (hcut : b ++ t = Encoded.flatten sent)
    (hlimit : b.length ≤ S.limit) :
    ∃ done, sent = done ++ (pending sent b).1 ∧
      StreamDataConsumer.Drained (S.protocol converter) ⟨b, none⟩
        (done.map (Encoded.verdict converter)) (waiting (pending sent b).2) := by
  induction sent generalizing b with
  | nil =>
    obtain rfl : b = [] := (List.append_eq_nil_iff.1 hcut).1
    exact ⟨[], rfl, waiting_drained []⟩
  | cons e sent ih =>
    have hnext : ∀ {c}, c ≠ [] → StreamDataConsumer.next (S.protocol converter) ⟨c, none⟩ none =
        (S.round converter ⟨c, 0⟩).plain := by
      intro c hc
      rw [plain_next, Option.getD_none, List.append_nil]
      exact if_neg hc
    obtain ⟨hcomplete, hwait⟩ := split_first hcut
    rcases Nat.lt_or_ge b.length e.bytes.length with hlt | hle
    · have hpending : pending (e :: sent) b = (e :: sent, b) := if_neg (Nat.not_le.2 hlt)
      rw [hpending]
      refine ⟨[], rfl, ?_⟩
      by_cases hb : b = []
      · subst hb
        exact waiting_drained []
      · refine .stop ((hnext hb).trans ?_)
        rw [round_waiting (hwait hlt) hlt hlimit]
        simp only [Round.plain, waiting, if_neg hb]
    · obtain ⟨r, rfl, hcut'⟩ := hcomplete hle
      have hb : e.bytes ++ r ≠ [] := by simp [hne e List.mem_cons_self]
      obtain ⟨done, hdone, hdrained⟩ := ih (fun e' he' => hne e' (List.mem_cons_of_mem e he')) hcut'
        (by rw [List.length_append] at hlimit; omega)
      have hpending : pending (e :: sent) (e.bytes ++ r) = pending sent r := by
        rw [pending, if_pos hle, List.drop_left]
      rw [hpending]
      refine ⟨e :: done, by rw [List.cons_append, ← hdone], ?_⟩
      refine .more ?_ (Verdict.verdict?_result _ r) hdrained
      rw [hnext hb, round_complete hlimit, Round.plain_ended]
      rfl

/-! ### A read -/

variable (converter) in
/-- **Step lemma.**  A read that fits gives the packets that it completes. -/
theorem reads_cons_iff (hne : ∀ e ∈ sent, e.bytes ≠ []) (hpending : pending sent b = (sent, b))
    {c : Bytes} (hcut : b ++ c ++ t = Encoded.flatten sent) (hlimit : (b ++ c).length ≤ S.limit) :
    ∃ done, sent = done ++ (pending sent (b ++ c)).1 ∧ ∀ reads vs st,
      StreamDataConsumer.Reads (S.protocol converter) (waiting b) (c :: reads) vs st ↔
        ∃ ws, vs = done.map (Encoded.verdict converter) ++ ws ∧ StreamDataConsumer.Reads
          (S.protocol converter) (waiting (pending sent (b ++ c)).2) reads ws st := by
  by_cases hc : c = []
  · subst hc
    rw [List.append_nil, hpending]
    have hstop : StreamDataConsumer.next (S.protocol converter) (waiting b) (some []) =
        (.stopIteration, waiting b) := by
      rw [plain_next]
      exact if_pos rfl
    exact ⟨[], rfl, fun reads vs st =>
      StreamDataConsumer.reads_cons_of_stop hstop (waiting_drained b)⟩
  have hbc : b ++ c ≠ [] := by simp [hc]
  cases sent with
  | nil => exact absurd (List.append_eq_nil_iff.1 hcut).1 hbc
  | cons e sent =>
    obtain ⟨hcomplete, hwait⟩ := split_first hcut
    rcases Nat.lt_or_ge (b ++ c).length e.bytes.length with hlt | hle
    · have hpending' : pending (e :: sent) (b ++ c) = (e :: sent, b ++ c) :=
        if_neg (Nat.not_le.2 hlt)
      rw [hpending']
      have hstop : StreamDataConsumer.next (S.protocol converter) (waiting b) (some c) =
          (.stopIteration, waiting (b ++ c)) := by
        rw [waiting_next b hc, round_waiting (hwait hlt) hlt hlimit]
        simp only [Round.plain, waiting, if_neg hbc]
      exact ⟨[], rfl, fun reads vs st =>
        StreamDataConsumer.reads_cons_of_stop hstop (waiting_drained _)⟩
    · obtain ⟨r, hr, hcut'⟩ := hcomplete hle
      have hlen : r.length ≤ S.limit := by
        rw [hr, List.length_append] at hlimit
        omega
      obtain ⟨done, hdone, hdrained⟩ := drained_pending converter
        (fun e' he' => hne e' (List.mem_cons_of_mem e he')) hcut' hlen
      have hpending' : pending (e :: sent) (b ++ c) = pending sent r := by
        rw [pending, if_pos hle, hr, List.drop_left]
      have hmore : StreamDataConsumer.next (S.protocol converter) (waiting b) (some c) =
          ((e.verdict converter).result r, ⟨r, none⟩) := by
        rw [waiting_next b hc, hr, round_complete (by rwa [← hr]), Round.plain_ended]
        rfl
      rw [hpending']
      exact ⟨e :: done, by rw [List.cons_append, ← hdone], fun reads vs st =>
        StreamDataConsumer.reads_cons_of_more hmore (Verdict.verdict?_result _ _) hdrained⟩

/-- **Step lemma.**  A read that does not fit raises a `LimitOverrunError`. -/
theorem not_reads_cons {c : Bytes} (hc : c ≠ []) (hlimit : S.limit < (b ++ c).length) :
    ¬ StreamDataConsumer.Reads (S.protocol converter) (waiting b) (c :: reads)
      (sent.map (Encoded.verdict converter)) st := by
  have hmore : StreamDataConsumer.next (S.protocol converter) (waiting b) (some c) =
      (.parseError ⟨.limitOverrun "chunk exceeded buffer limit" (b ++ c).length, []⟩,
        ⟨[], none⟩) := by
    rw [waiting_next b hc, round_overrun hlimit]
    rfl
  rw [StreamDataConsumer.reads_cons_of_more hmore rfl (waiting_drained [])]
  rintro ⟨ws, hvs, -⟩
  cases sent with
  | nil => cases hvs
  | cons e sent =>
    exact convert_ne_limitOverrun e.packet _ _ (List.cons.inj hvs).1

theorem fitsLimit_cons {c : Bytes} (hpending : pending sent b = (sent, b)) :
    (∀ pre d, pre ++ [d] <+: c :: reads →
        ((pending sent (b ++ pre.flatten)).2 ++ d).length ≤ S.limit) ↔
      (b ++ c).length ≤ S.limit ∧ ∀ pre d, pre ++ [d] <+: reads →
        ((pending (pending sent (b ++ c)).1
          ((pending sent (b ++ c)).2 ++ pre.flatten)).2 ++ d).length ≤ S.limit := by
  have hcons : ∀ pre : List Bytes, b ++ (c :: pre).flatten = b ++ c ++ pre.flatten := fun pre => by
    rw [List.flatten_cons, List.append_assoc]
  constructor
  · intro h
    refine ⟨?_, fun pre d hpre => ?_⟩
    · have := h [] c (List.cons_prefix_cons.2 ⟨rfl, List.nil_prefix⟩)
      rwa [List.flatten_nil, List.append_nil, hpending] at this
    · have := h (c :: pre) d (List.cons_prefix_cons.2 ⟨rfl, hpre⟩)
      rwa [hcons, pending_append] at this
  · rintro ⟨hfirst, hrest⟩ pre d hpre
    cases pre with
    | nil =>
      obtain ⟨rfl, -⟩ := List.cons_prefix_cons.1 hpre
      rwa [List.flatten_nil, List.append_nil, hpending]
    | cons c' pre =>
      obtain ⟨rfl, hpre'⟩ := List.cons_prefix_cons.1 hpre
      rw [hcons, pending_append]
      exact hrest pre d hpre'

/-- **Run lemma.** -/
theorem delivers_iff_of_waiting (hne : ∀ e ∈ sent, e.bytes ≠ []) (hpending : pending sent b = (sent, b))
    (hcut : b ++ reads.flatten = Encoded.flatten sent) (hb : b.length ≤ S.limit) :
    (∃ st, StreamDataConsumer.Reads (S.protocol converter) (waiting b) reads
        (sent.map (Encoded.verdict converter)) st) ↔
      ∀ pre c, pre ++ [c] <+: reads →
        ((pending sent (b ++ pre.flatten)).2 ++ c).length ≤ S.limit := by
  induction reads generalizing sent b with
  | nil =>
    rw [List.flatten_nil, List.append_nil] at hcut
    obtain rfl := eq_nil_of_pending hpending hcut
    refine iff_of_true ⟨_, .nil⟩ fun pre c hpre => ?_
    simp at hpre
  | cons c reads ih =>
    rw [List.flatten_cons, ← List.append_assoc] at hcut
    rw [fitsLimit_cons hpending]
    rcases Nat.lt_or_ge S.limit (b ++ c).length with hlt | hlimit
    · have hc : c ≠ [] := by
        rintro rfl
        rw [List.append_nil] at hlt
        omega
      refine iff_of_false ?_ fun h => absurd h.1 (Nat.not_le.2 hlt)
      rintro ⟨st, hreads⟩
      exact not_reads_cons hc hlt hreads
    · obtain ⟨done, hdone, hread⟩ := reads_cons_iff converter hne hpending hcut hlimit
      have hrest := ih (fun e he => hne e ((pending_suffix sent (b ++ c)).subset he))
        (pending_pending sent (b ++ c)) (append_pending hcut)
        ((length_pending_le sent (b ++ c)).trans hlimit)
      rw [and_iff_right hlimit, ← hrest]
      refine exists_congr fun st => (hread reads _ st).trans ?_
      nth_rewrite 1 [hdone]
      rw [List.map_append]
      constructor
      · rintro ⟨ws, hws, hreads⟩
        obtain rfl := List.append_cancel_left hws
        exact hreads
      · exact fun hreads => ⟨_, rfl, hreads⟩

/-- A stream without bytes gives nothing. -/
theorem reads_nil (hreads : reads.flatten = []) {vs : List (Verdict P Bytes)}
    (h : StreamDataConsumer.Reads (S.protocol converter) .init reads vs st) : vs = [] := by
  induction reads generalizing vs with
  | nil =>
    cases h
    rfl
  | cons c reads ih =>
    obtain ⟨rfl, hrest⟩ := List.append_eq_nil_iff.1 hreads
    have hstop : StreamDataConsumer.next (S.protocol converter) .init (some []) =
        (.stopIteration, .init) := rfl
    rw [StreamDataConsumer.reads_cons_of_stop hstop (waiting_drained [])] at h
    obtain ⟨ws, rfl, h⟩ := h
    exact ih hrest h

/-- If a packet is read from nothing, all of them are. -/
theorem Encoded.bytes_eq_nil {e' : S.Encoded} (h : e.bytes = []) : e'.bytes = [] := by
  have he := e.returned e'.bytes
  have he' := e'.returned []
  rw [h, List.nil_append] at he
  rw [List.append_nil, he] at he'
  injection he' with _ hlen
  exact List.eq_nil_of_length_eq_zero hlen.symm

end

/-- **The consumer delivers the packets iff none of them is empty and no read, together with what has
    been received of the next packet, is longer than the limit.** -/
theorem delivers_iff (S : FileBasedPacketSerializer P) (converter : Converter P Bytes)
    (sent : List S.Encoded) (reads : List Bytes) (hcut : reads.flatten = Encoded.flatten sent) :
    (∃ st, StreamDataConsumer.Reads (S.protocol converter) .init reads
        (sent.map (Encoded.verdict converter)) st) ↔
      (∀ e ∈ sent, e.bytes ≠ []) ∧ FitsLimit sent reads := by
  by_cases hne : ∀ e ∈ sent, e.bytes ≠ []
  · rw [and_iff_right hne]
    exact delivers_iff_of_waiting (b := []) hne (pending_nil hne) hcut (Nat.zero_le _)
  · refine iff_of_false ?_ fun h => hne h.1
    rintro ⟨st, hreads⟩
    obtain ⟨e, he, hnil⟩ : ∃ e ∈ sent, e.bytes = [] := by simpa using hne
    have hflat : reads.flatten = [] := by
      rw [hcut, Encoded.flatten, List.flatten_eq_nil_iff]
      intro bytes hbytes
      obtain ⟨e', -, rfl⟩ := List.mem_map.1 hbytes
      exact Encoded.bytes_eq_nil hnil
    have hvs := reads_nil hflat hreads
    rw [List.map_eq_nil_iff] at hvs
    subst hvs
    cases he

/-- A packet of two bytes. -/
def twoBytesEncoded (a b : UInt8) : twoBytes.Encoded where
  packet := [a, b]
  bytes := [a, b]
  eof
    | [], _, _ => rfl
    | [_], _, _ => rfl
    | x :: y :: r, h, hne => by
      have hr : r = [] := List.eq_nil_of_length_eq_zero (by
        have := h.length_le
        simp only [List.length_cons, List.length_nil] at this
        omega)
      subst hr
      exact absurd (h.eq_of_length rfl) hne
  returned _ := rfl

/-- Two packets of two bytes, of which the second is cut. -/
theorem delivers_two : ∃ st, StreamDataConsumer.Reads (twoBytes.protocol none) .init
    [[1, 2, 3], [4]] ([twoBytesEncoded 1 2, twoBytesEncoded 3 4].map (Encoded.verdict none)) st := by
  refine (delivers_iff twoBytes none [twoBytesEncoded 1 2, twoBytesEncoded 3 4] [[1, 2, 3], [4]] rfl).2
    ⟨by decide, fun pre c hpre => ?_⟩
  obtain ⟨post, hpost⟩ := hpre
  rcases pre with _ | ⟨x, _ | ⟨y, pre⟩⟩
  · cases hpost
    decide
  · cases hpost
    decide
  · have hlen := congrArg List.length hpost
    simp at hlen

/-- Five packets of two bytes in one read, with a limit of eight bytes: the read is refused, and all of
    the packets are lost. -/
theorem five_in_a_read :
    (∀ n ∈ [1, 2, 3, 4, 5], (twoBytesEncoded n n).bytes.length ≤ twoBytes.limit) ∧
      StreamDataConsumer.next (twoBytes.protocol none) .init
          (some [1, 1, 2, 2, 3, 3, 4, 4, 5, 5]) =
        (.parseError ⟨.limitOverrun "chunk exceeded buffer limit" 10, []⟩, .init) ∧
      ¬ ∃ st, StreamDataConsumer.Reads (twoBytes.protocol none) .init
        [[1, 1, 2, 2, 3, 3, 4, 4, 5, 5]]
        (([1, 2, 3, 4, 5].map fun n => twoBytesEncoded n n).map (Encoded.verdict none)) st := by
  refine ⟨fun n _ => (by decide : 2 ≤ 8), by decide, ?_⟩
  rintro ⟨st, hreads⟩
  exact not_reads_cons (b := []) (by decide) (by decide) hreads

end FileBasedPacketSerializer

end EasyNetwork
