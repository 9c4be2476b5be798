/-
  The two stream data consumers on a stream of JSON documents.

  The framer `documents` gives the documents of a stream in one pass; the generators of a
  `JSONSerializer` without `useLines` implement it.  On the encodings of packets with whitespaces between
  them its documents are the encodings (`outs_encodings`), so both consumers deliver the packets
  (`reads_deliver_documents`).
-/
import EasyNetwork.Delivery
import EasyNetwork.Json
import EasyNetwork.JsonText

namespace EasyNetwork

open Coroutine Automaton Framing

namespace JsonParser

/-! ## The documents of a stream -/

section
variable {d t : Bytes} {e : ℕ}

/-- The end of a document does not move when more bytes come. -/
theorem documentEnd_append (h : documentEnd d = some e) (t : Bytes) :
    documentEnd (d ++ t) = some e := by
  cases d with
  | nil => simp [documentEnd] at h
  | cons o x =>
    rw [List.cons_append]
    simp only [documentEnd] at h ⊢
    rcases ho : enclosureBytes o with _ | c <;> rw [ho] at h
    · simp only at h ⊢
      rw [← List.cons_append, List.findIdx?_append, h]; rfl
    · obtain ⟨k, hk, rfl⟩ := Option.map_eq_some_iff.1 h
      simp only [haltsAt_append_of_some hk, Option.map_some]

/-- A document that is completed by `t` has all of what was there before. -/
theorem length_le_documentEnd (h : documentEnd d = none) (h' : documentEnd (d ++ t) = some e) :
    d.length ≤ e := by
  cases d with
  | nil => exact Nat.zero_le _
  | cons o x =>
    rw [List.cons_append] at h'
    simp only [documentEnd] at h h'
    rcases ho : enclosureBytes o with _ | c <;> rw [ho] at h h'
    · simp only at h h'
      rw [← List.cons_append, List.findIdx?_append, h, Option.none_or] at h'
      obtain ⟨k, -, rfl⟩ := Option.map_eq_some_iff.1 h'
      omega
    · obtain ⟨k, hk, rfl⟩ := Option.map_eq_some_iff.1 h'
      have := length_lt_haltsAt ⟨Option.map_eq_none_iff.1 h, rfl⟩ hk
      simp; omega

end

/-- The framer of documents.  A first byte that is not printable begins no document. -/
def documents : Framer UInt8 Bytes where
  dec b := match documentEnd (strip b) with
    | none | some 0 => none
    | some (e + 1) => some ((strip b).take (e + 1), strip ((strip b).drop (e + 1)))
  norm := strip
  dec_lt := by
    intro b o r h
    split at h
    · cases h
    · cases h
    · next e he =>
      cases h
      have h1 := documentEnd_le he
      have h2 := (strip_suffix ((strip b).drop (e + 1))).length_le
      have h3 := (strip_suffix b).length_le
      rw [List.length_drop] at h2
      omega
  norm_suffix := strip_suffix
  dec_norm b := by simp only [strip_strip]
  norm_append b t := strip_append_strip b t
  dec_append := by
    intro b o r t h
    split at h
    · cases h
    · cases h
    · next e he =>
      cases h
      have hle := documentEnd_le he
      have hne : strip b ≠ [] := by
        rw [← List.length_pos_iff]; omega
      have hb : strip (b ++ t) = strip b ++ t := by
        rw [← strip_append_strip, strip_append_of_strip (strip_strip b) hne]
      rw [hb, documentEnd_append he]
      simp only [List.take_append_of_le_length hle, List.drop_append_of_le_length hle,
        strip_append_strip]

section
variable {b d t o r : Bytes} {e limit : ℕ}

@[simp] theorem documents_norm (b : Bytes) : documents.norm b = strip b := rfl

theorem documents_dec_some : documents.dec b = some (o, r) ↔ ∃ e, documentEnd (strip b) = some e ∧
    0 < e ∧ o = (strip b).take e ∧ r = strip ((strip b).drop e) := by
  simp only [documents]
  constructor
  · intro h
    split at h
    · cases h
    · cases h
    · next e he => cases h; exact ⟨e + 1, he, Nat.succ_pos e, rfl, rfl⟩
  · rintro ⟨e, he, hpos, rfl, rfl⟩
    obtain ⟨e, rfl⟩ := Nat.exists_eq_add_one.2 hpos
    rw [he]

theorem documents_dec_none (h : documents.dec b = none) (h0 : documentEnd (strip b) ≠ some 0) :
    documentEnd (strip b) = none := by
  rcases he : documentEnd (strip b) with _ | e
  · rfl
  · have hpos : 0 < e := Nat.pos_of_ne_zero (by rintro rfl; exact h0 he)
    have := documents_dec_some.2 ⟨e, he, hpos, rfl, rfl⟩
    rw [h] at this; cases this

/-- No document has `limit` bytes, nor has what is left; and this is not without a document. -/
def Within (limit : ℕ) (b : Bytes) : Prop :=
  (∀ o ∈ documents.outs b, o.length < limit) ∧ (documents.rest b).length < limit ∧
    documentEnd (documents.rest b) ≠ some 0

theorem strip_rest (b : Bytes) : strip (documents.rest b) = documents.rest b := by
  induction hn : b.length using Nat.strongRecOn generalizing b with
  | ind n ih =>
    rcases h : documents.dec b with _ | ⟨o, r⟩
    · rw [Framer.rest_none h, documents_norm, strip_strip]
    · rw [Framer.rest_some h]; exact ih _ (hn ▸ documents.dec_lt h) r rfl

theorem within_closed (limit : ℕ) : documents.Closed (Within limit) where
  of_append := by
    rintro b t ⟨h1, h2, h3⟩
    rw [Framer.outs_append] at h1
    rw [Framer.rest_append] at h2 h3
    have hpos : 0 < limit := by omega
    refine ⟨fun o ho => h1 o (List.mem_append_left _ ho), ?_⟩
    by_cases hb : documents.rest b = []
    · rw [hb]; exact ⟨hpos, by simp [documentEnd]⟩
    have hst : strip (documents.rest b ++ t) = documents.rest b ++ t :=
      strip_append_of_strip (strip_rest b) hb t
    rcases h : documents.dec (documents.rest b ++ t) with _ | ⟨o, r⟩
    · rw [Framer.rest_none h, documents_norm, hst] at h2 h3
      rw [List.length_append] at h2
      exact ⟨by omega, fun h0 => h3 (documentEnd_append h0 t)⟩
    · -- what is left of `b` begins a document of `b ++ t`
      have ho := h1 o (List.mem_append_right _ (by rw [Framer.outs_some h]; exact .head _))
      obtain ⟨e, he, hpos', rfl, -⟩ := documents_dec_some.1 h
      rw [hst] at he ho
      have h0 : documentEnd (documents.rest b) ≠ some 0 := by
        intro h0
        rw [documentEnd_append h0] at he
        cases he; exact Nat.lt_irrefl 0 hpos'
      have hnone : documentEnd (documents.rest b) = none := by
        rw [← strip_rest] at h0 ⊢
        exact documents_dec_none (Framer.dec_rest b) h0
      have := length_le_documentEnd hnone he
      have := documentEnd_le he
      rw [List.length_take] at ho
      exact ⟨by omega, h0⟩
  dec := by
    rintro b o r ⟨h1, h2, h3⟩ h
    rw [Framer.outs_some h] at h1
    rw [Framer.rest_some h] at h2 h3
    exact ⟨fun o ho => h1 o (.tail _ ho), h2, h3⟩
  norm := by
    intro b
    simp only [Within, Framer.outs_norm, Framer.rest_norm]

/-- Between two documents, what is left is short and may begin a document. -/
theorem Within.none (h : Within limit b) (hb : documents.dec b = Option.none) :
    documentEnd (strip b) = Option.none ∧ (strip b).length < limit := by
  obtain ⟨-, h2, h3⟩ := h
  rw [Framer.rest_none hb, documents_norm] at h2 h3
  exact ⟨documents_dec_none hb h3, h2⟩

/-- A document that comes is not empty, and it has fewer than `limit` bytes. -/
theorem Within.some (h : Within limit b) (hb : documents.dec b = Option.some (o, r)) :
    ∃ e, documentEnd (strip b) = Option.some e ∧ 0 < e ∧ e ≤ limit ∧ strip b ≠ [] ∧
      o = (strip b).take e ∧ r = strip ((strip b).drop e) := by
  have hlen : o.length < limit := h.1 o (by rw [Framer.outs_some hb]; exact .head _)
  obtain ⟨e, he, hpos, rfl, rfl⟩ := documents_dec_some.1 hb
  have hle := documentEnd_le he
  rw [List.length_take] at hlen
  refine ⟨e, he, hpos, by omega, ?_, rfl, rfl⟩
  rw [← List.length_pos_iff]
  omega

end

/-! ## The generators read the documents -/

section
variable {ι : Type} {limit : ℕ} {b c o r : Bytes} (hnone : documentEnd (strip b) = none)
  (hc : c ≠ []) (hok : Within limit (b ++ c))
include hnone hc hok

omit hc in
theorem rawParse_send_none (hd : documents.dec (b ++ c) = none) :
    (rawParse limit : Generator _ _ _ _ (SerializerError ι)).send ⟨strip b, suspended (strip b)⟩ c =
      .yielded ⟨strip (b ++ c), suspended (strip (b ++ c))⟩ () :=
  rawParse_send_open hnone (hok.none hd).1 (hok.none hd).2

theorem rawParse_send_some (hd : documents.dec (b ++ c) = some (o, r)) :
    (rawParse limit : Generator _ _ _ _ (SerializerError ι)).send ⟨strip b, suspended (strip b)⟩ c =
      .returned (o, r) := by
  obtain ⟨e, he, hpos, hlim, hne, rfl, rfl⟩ := hok.some hd
  rw [rawParse_send_ended hnone hne hc, outcome_some (take_moved b c) he hlim hpos]
  rfl

variable {n : ℕ} {buf : Bytes} (hbuf : buf.length = limit) (hn : n = (strip b).length)
  (htake : buf.take n = strip b) (hfit : n + c.length ≤ limit)
include hbuf hn htake hfit

omit hnone hc hok in
/-- The buffer after the read has been written and the document moved to its beginning. -/
theorem external_buffer : (writeAt buf n c).take (strip b ++ c).length = strip b ++ c ∧
    (writeAt (writeAt buf n c) 0 (strip (b ++ c))).length = limit ∧
    (writeAt (writeAt buf n c) 0 (strip (b ++ c))).take (strip (b ++ c)).length = strip (b ++ c) := by
  have h1 : n + c.length ≤ buf.length := by omega
  have hlen : (strip b ++ c).length = n + c.length := by rw [List.length_append, hn]
  have hst : (strip (b ++ c)).length ≤ n + c.length := by
    rw [← strip_append_strip, ← hlen]; exact (strip_suffix _).length_le
  have h2 : 0 + (strip (b ++ c)).length ≤ (writeAt buf n c).length := by
    rw [length_writeAt h1]; omega
  refine ⟨by rw [hlen, take_writeAt h1, htake], by rw [length_writeAt h2, length_writeAt h1, hbuf], ?_⟩
  have h3 := take_writeAt h2
  rwa [Nat.zero_add, List.take_zero, List.nil_append] at h3

theorem external_send_none (hd : documents.dec (b ++ c) = none) :
    ∃ buf', (rawParseWithExternalBuffer : BufferGenerator _ _ _ (SerializerError ι)).send
        (limit, suspended (strip b)) (writeAt buf n c) c.length =
          (buf', .yielded (limit, suspended (strip (b ++ c))) (some (strip (b ++ c)).length)) ∧
      buf'.length = limit ∧ buf'.take (strip (b ++ c)).length = strip (b ++ c) := by
  obtain ⟨h1, h2⟩ := hok.none hd
  obtain ⟨h3, h4, h5⟩ := external_buffer hbuf hn htake hfit
  have hall := strip_append_strip b c
  by_cases hne : strip (b ++ c) = []
  · refine ⟨writeAt buf n c, ?_, by rw [length_writeAt (by omega), hbuf], by rw [hne]; rfl⟩
    simp only [rawParseWithExternalBuffer, send_eq hnone (strip_strip b) hc h3, hall, hne, if_true]
    rfl
  · refine ⟨_, ?_, h4, h5⟩
    simp only [rawParseWithExternalBuffer, send_eq hnone (strip_strip b) hc h3, hall, hne, if_false,
      outcome_none h1 h2]

theorem external_send_some (hd : documents.dec (b ++ c) = some (o, r)) :
    ∃ buf', (rawParseWithExternalBuffer : BufferGenerator _ _ _ (SerializerError ι)).send
        (limit, suspended (strip b)) (writeAt buf n c) c.length = (buf', .returned (o, r)) ∧
      buf'.length = limit ∧ r.length ≤ limit := by
  obtain ⟨e, he, hpos, hlim, hne, rfl, rfl⟩ := hok.some hd
  obtain ⟨h3, h4, h5⟩ := external_buffer hbuf hn htake hfit
  have hall := strip_append_strip b c
  have hr : (strip ((strip (b ++ c)).drop e)).length ≤ limit := by
    have h6 := congrArg List.length h5
    rw [List.length_take] at h6
    have := (strip_suffix ((strip (b ++ c)).drop e)).length_le
    rw [List.length_drop] at this
    omega
  refine ⟨_, ?_, h4, hr⟩
  simp only [rawParseWithExternalBuffer, send_eq hnone (strip_strip b) hc h3, hall, hne, if_false,
    outcome_some h5 he hlim hpos]

end

end JsonParser

namespace JSONSerializer

open JsonParser

variable {P : Type} {S : JSONSerializer P} (converter : Converter P JsonErrorInfo)

variable (S) in
/-- What a protocol with this serializer makes of a document. -/
def report (document : Bytes) : Verdict P JsonErrorInfo := (S.verdict document).convert converter

/-- The protocol's generators end with the outcome of a document. -/
theorem finish_document {σ Y : Type} {document : Bytes} (hcaught : S.Caught document)
    (remainder : Bytes) :
    ((.ofExcept (S.deserializeIncrementalDocument (.ok (document, remainder))) :
      Resumed σ Y _ _)).finish (buildPacket converter) =
        (S.report converter document).ended remainder := by
  rw [Resumed.finish_ofExcept, deserializeIncrementalDocument_of_caught hcaught,
    finish_withRemainder, report]

variable (S) in
/-- The frames of the received bytes keep to a limit (`ok`), and the exceptions that the decoder
    raises on them are caught. -/
def Handles (F : Framer UInt8 Bytes) (ok : Bytes → Prop) (b : Bytes) : Prop :=
  ok b ∧ ∀ document ∈ F.outs b, S.Caught document

theorem handles_closed {F : Framer UInt8 Bytes} {ok : Bytes → Prop} (h : F.Closed ok) :
    F.Closed (S.Handles F ok) := h.and_outs S.Caught

theorem Handles.caught {F : Framer UInt8 Bytes} {ok : Bytes → Prop} {b document r : Bytes}
    (h : S.Handles F ok b) (hd : F.dec b = some (document, r)) : S.Caught document :=
  h.2 document (by rw [Framer.outs_some hd]; exact List.mem_cons_self)

/-- `raw_parse` suspended, after it has received `b`. -/
def Has (s : ReadUntil ⊕ RawParseState) (b : Bytes) : Prop :=
  s = .inr ⟨strip b, suspended (strip b)⟩

/-- `raw_parse_with_external_buffer` suspended, after it has received `b`. -/
structure BufferHas (limit : ℕ) (s : BufferedReaduntil ⊕ (ℕ × RawParse)) (n : ℕ) (buf b : Bytes) :
    Prop where
  state : s = .inr (limit, suspended (strip b))
  start : n = (strip b).length
  free : n < limit
  length : buf.length = limit
  take : buf.take n = strip b

variable (hlines : S.useLines = false)
include hlines

theorem implements : Implements (S.protocol converter).buildPacketFromChunks documents
    (S.report converter) (S.Handles documents (Within S.limit)) Has where
  next := by
    refine ⟨.inr ⟨[], .skipping⟩, ?_, rfl⟩
    have := S.limit_pos
    simp only [StreamProtocol.buildPacketFromChunks, protocol, incrementalDeserialize,
      Generator.finish, Generator.either, hlines, rawParse, if_neg (by omega : ¬ S.limit = 0)]
    rfl
  norm := by
    rintro s b rfl
    rw [Has, documents_norm, strip_strip]
  send_none := by
    rintro s b c rfl hc ⟨hok, -⟩ hb hd
    obtain ⟨hnone, -⟩ := ((within_closed S.limit).of_append hok).none hb
    refine ⟨_, ?_, rfl⟩
    simp only [StreamProtocol.buildPacketFromChunks, protocol, incrementalDeserialize,
      Generator.finish, Generator.either, rawParse_send_none hnone hok hd]
    rfl
  send_some := by
    rintro s b c o r rfl hc hhandles hb hd
    have hok := hhandles.1
    obtain ⟨hnone, -⟩ := ((within_closed S.limit).of_append hok).none hb
    simp only [StreamProtocol.buildPacketFromChunks, protocol, incrementalDeserialize,
      Generator.finish, Generator.either, rawParse_send_some hnone hc hok hd]
    exact finish_document converter (hhandles.caught hd) r

theorem bufferImplements : BufferImplements (S.bufferedProtocol converter).buildPacketFromBuffer
    documents (S.report converter) (S.Handles documents (Within S.limit)) S.limit
    (BufferHas S.limit) where
  next := by
    intro buf hl
    refine ⟨.inr (S.limit, .skipping), some 0, ?_, rfl, rfl, rfl, S.limit_pos, hl, rfl⟩
    have := S.limit_pos
    simp only [BufferedStreamProtocol.buildPacketFromBuffer, bufferedProtocol,
      bufferedIncrementalDeserialize, bufferedDocument, BufferGenerator.finish,
      BufferGenerator.either, hlines, rawParseWithExternalBuffer, hl, if_neg (by omega : ¬ S.limit = 0)]
    rfl
  norm := by
    rintro s n buf b ⟨h1, h2, h3, h4, h5⟩
    rw [← strip_strip] at h1 h2 h5
    exact ⟨h1, h2, h3, h4, h5⟩
  lt h := ⟨h.free, h.length⟩
  send_none := by
    rintro s n buf b c ⟨rfl, h2, h3, h4, h5⟩ hc hl ⟨hok, -⟩ hb hd
    obtain ⟨hnone, -⟩ := ((within_closed S.limit).of_append hok).none hb
    obtain ⟨buf', h6, h7, h8⟩ :=
      external_send_none (ι := JsonErrorInfo) hnone hc hok h4 h2 h5 hl hd
    refine ⟨_, some (strip (b ++ c)).length, buf', ?_, rfl, rfl, (hok.none hd).2, h7, h8⟩
    simp only [BufferedStreamProtocol.buildPacketFromBuffer, bufferedProtocol,
      bufferedIncrementalDeserialize, bufferedDocument, BufferGenerator.finish,
      BufferGenerator.either, h6]
    rfl
  send_some := by
    rintro s n buf b c o r ⟨rfl, h2, h3, h4, h5⟩ hc hl hhandles hb hd
    have hok := hhandles.1
    obtain ⟨hnone, -⟩ := ((within_closed S.limit).of_append hok).none hb
    obtain ⟨buf', h6, h7, h8⟩ :=
      external_send_some (ι := JsonErrorInfo) hnone hc hok h4 h2 h5 hl hd
    refine ⟨buf', ?_, h7, h8⟩
    simp only [BufferedStreamProtocol.buildPacketFromBuffer, bufferedProtocol,
      bufferedIncrementalDeserialize, bufferedDocument, BufferGenerator.finish,
      BufferGenerator.either, h6]
    exact congrArg (Prod.mk buf') (finish_document converter (hhandles.caught hd) r)

/-! ## Runs -/

variable (S) in
/-- The outputs of `incremental_serialize`, with whitespaces after each of them; none of the
    outputs has `limit` bytes. -/
inductive Stream : List P → Bytes → Prop
  | nil : Stream [] []
  | cons {packet chunks ws packets stream} : S.incrementalSerialize packet = .ok chunks →
      chunks.flatten.length < S.limit → (∀ b ∈ ws, isWhitespace b = true) → Stream packets stream →
      Stream (packet :: packets) (chunks.flatten ++ (ws ++ stream))

omit hlines in
theorem strip_whitespaces {ws : Bytes} (h : ∀ b ∈ ws, isWhitespace b = true) (t : Bytes) :
    strip (ws ++ t) = strip t := by
  have hws : strip ws = [] := by
    rw [strip, List.dropWhile_eq_nil_iff]; exact h
  rw [← strip_append_strip, hws, List.nil_append]

/-- The first document of the encoding of a text and whitespaces. -/
theorem dec_encoding {text : String} {packet : P} {chunks : List Bytes} {describe : Bytes → String}
    (hcodec : S.codec = .utf8 describe) (henc : S.encode packet = .ok text)
    (hjson : CompactJson text.toList) (hchunks : S.incrementalSerialize packet = .ok chunks)
    (t : Bytes) :
    documents.dec (chunks.flatten ++ t) = some (Utf8.encode text, strip t) ∧
      (Utf8.encode text).length ≤ chunks.flatten.length := by
  have hser : S.serialize packet = .ok (Utf8.encode text) := by
    simp only [serialize, henc, hcodec, Codec.utf8]
  simp only [incrementalSerialize, hser, hlines, Bool.false_or, Except.ok.injEq] at hchunks
  subst hchunks
  obtain ⟨b, x, hbx, hb, h1, h2⟩ := documentEnd_encode hjson
  rw [Utf8.encode]
  have hpos : 0 < (Utf8.encodeList text.toList).length := by rw [hbx]; exact Nat.succ_pos _
  have hstrip : ∀ u, strip (Utf8.encodeList text.toList ++ u) = Utf8.encodeList text.toList ++ u := by
    intro u
    rw [hbx, List.cons_append, strip, List.dropWhile_cons_of_neg (by simp [hb])]
  have hstart : startsWithObjectStart (Utf8.encodeList text.toList) = (enclosureBytes b).isSome := by
    rw [hbx]; rfl
  rcases ho : enclosureBytes b with _ | c
  · rw [hstart, ho]
    refine ⟨documents_dec_some.2 ⟨_, ?_, hpos, ?_, ?_⟩, by simp⟩
    · simpa [hstrip] using h2 ho t
    · simp [hstrip]
    · have hnl : strip (10 :: t) = strip t := rfl
      simp [hstrip, hnl]
  · rw [hstart, ho]
    refine ⟨documents_dec_some.2 ⟨_, ?_, hpos, ?_, ?_⟩, by simp⟩
    · simpa [hstrip] using h1 (by rw [ho]; rfl) t
    · simp [hstrip]
    · simp [hstrip]

section
variable {describe : Bytes → String} (hcodec : S.codec = .utf8 describe) {packets : List P}
  {stream : Bytes} (hjson : ∀ packet ∈ packets, ∃ text, S.encode packet = .ok text ∧
    CompactJson text.toList) (hstream : S.Stream packets stream)
include hcodec hjson hstream

/-- **The documents of the stream are the encodings of the packets**, and nothing is left. -/
theorem outs_encodings :
    List.Forall₂ (fun packet document => S.serialize packet = .ok document) packets
        (documents.outs stream) ∧
      documents.rest stream = [] ∧ ∀ o ∈ documents.outs stream, o.length < S.limit := by
  induction hstream with
  | nil => simp
  | @cons packet chunks ws packets stream hchunks hlen hws _ ih =>
    obtain ⟨text, henc, htext⟩ := hjson packet (by simp)
    obtain ⟨h1, h2⟩ := dec_encoding hlines hcodec henc htext hchunks (ws ++ stream)
    obtain ⟨h3, h4, h5⟩ := ih fun p hp => hjson p (List.mem_cons_of_mem _ hp)
    have hser : S.serialize packet = .ok (Utf8.encode text) := by
      simp only [serialize, henc, hcodec, Codec.utf8]
    rw [strip_whitespaces hws, ← documents_norm] at h1
    rw [Framer.outs_some h1, Framer.rest_some h1, Framer.outs_norm, Framer.rest_norm]
    refine ⟨.cons hser h3, h4, ?_⟩
    intro o ho
    rcases List.mem_cons.1 ho with rfl | ho
    · omega
    · exact h5 o ho

theorem within_encodings : Within S.limit stream := by
  obtain ⟨-, h1, h2⟩ := outs_encodings hlines hcodec hjson hstream
  refine ⟨h2, ?_, ?_⟩
  · rw [h1]; exact S.limit_pos
  · rw [h1]; simp [documentEnd]

/-- The decoder's exceptions on the documents of the stream are caught. -/
theorem handles_encodings (hcaught : ∀ packet ∈ packets, ∀ document,
    S.serialize packet = .ok document → S.Caught document) :
    S.Handles documents (Within S.limit) stream := by
  refine ⟨within_encodings hlines hcodec hjson hstream, ?_⟩
  have hdocs := (outs_encodings hlines hcodec hjson hstream).1
  clear hstream hjson
  generalize documents.outs stream = docs at hdocs
  induction hdocs with
  | nil => exact fun document hd => absurd hd List.not_mem_nil
  | @cons packet document packets docs hser _ ih =>
    intro document' hd
    rcases List.mem_cons.1 hd with rfl | hd
    · exact hcaught packet List.mem_cons_self _ hser
    · exact ih (fun p hp => hcaught p (List.mem_cons_of_mem _ hp)) document' hd

end

/-- The consumer keeps no byte of the stream. -/
def KeepsNothing (st : StreamDataConsumer (ReadUntil ⊕ RawParseState)) : Prop :=
  st.buffer = [] ∧ (st.consumer = none ∨ st.consumer = some (.inr ⟨[], .skipping⟩))

/-- The consumer keeps no byte of the stream; what its generator asks for begins at index 0. -/
def BufferKeepsNothing (limit : ℕ)
    (st : BufferedStreamDataConsumer (BufferedReaduntil ⊕ (ℕ × RawParse))) : Prop :=
  st.alreadyWritten = 0 ∧
    (st.consumer = none ∨ (st.consumer = some (.inr (limit, .skipping)) ∧ st.bufferStart = 0))

omit hlines in
theorem keepsNothing_of_rep {st : StreamDataConsumer (ReadUntil ⊕ RawParseState)}
    (h : StreamDataConsumer.Rep documents Has st []) : KeepsNothing st := by
  refine ⟨h.buffer, ?_⟩
  rcases h.holds with ⟨hc, -⟩ | ⟨s, received, hc, hs, -, hnorm⟩
  · exact Or.inl hc
  · rw [documents_norm] at hnorm
    rw [Has, hnorm] at hs
    exact Or.inr (hs ▸ hc)

omit hlines in
theorem bufferKeepsNothing_of_rep {limit : ℕ} {b : Bytes}
    {st : BufferedStreamDataConsumer (BufferedReaduntil ⊕ (ℕ × RawParse))}
    (h : BufferedStreamDataConsumer.Rep documents limit (BufferHas limit) st b) (hb : strip b = []) :
    BufferKeepsNothing limit st := by
  rcases h.holds with ⟨⟨-⟩, -⟩ | ⟨hi, -⟩
  · exact ⟨rfl, Or.inl rfl⟩
  · have h1 := hi.state
    have h2 := hi.start
    rw [hb] at h1 h2
    exact ⟨rfl, Or.inr ⟨by rw [h1]; rfl, h2⟩⟩

omit hlines in
/-- The decoder is handed the encoding of a packet, and inverts it. -/
theorem verdict_encoding {describe : Bytes → String} (hcodec : S.codec = .utf8 describe) {packet : P}
    {document : Bytes} (hser : S.serialize packet = .ok document)
    (hdecode : ∀ text, S.encode packet = .ok text → S.decode text = .ok packet) :
    S.verdict document = .ok packet := by
  unfold serialize at hser
  rcases henc : S.encode packet with exc | text <;> rw [henc] at hser
  · cases hser
  · simp only [hcodec, Codec.utf8, Except.ok.injEq] at hser
    subst hser
    simp only [verdict, outcome, hcodec, Codec.utf8, Utf8.decode_encode, hdecode text henc]

end JSONSerializer

open JSONSerializer JsonParser in
/-- **Both consumers deliver the packets.**  Of the outputs of `incremental_serialize` with whitespaces
    after them, cut in any way, the decoder is handed exactly the encodings of the packets, in
    order; no byte but whitespaces is left unread, and the buffered consumer never runs out of space for
    the next read. -/
theorem JSONSerializer.reads_deliver_documents {P : Type} (S : JSONSerializer P)
    (converter : Converter P JsonErrorInfo) (hint : ℕ) {describe : Bytes → String}
    (hcodec : S.codec = .utf8 describe) (hlines : S.useLines = false) {packets : List P}
    (hjson : ∀ packet ∈ packets, ∃ text, S.encode packet = .ok text ∧ CompactJson text.toList)
    (hcaught : ∀ packet ∈ packets, ∀ document, S.serialize packet = .ok document →
      S.Caught document)
    {stream : Bytes} (hstream : S.Stream packets stream) :
    ∃ docs, List.Forall₂ (fun packet document => S.serialize packet = .ok document) packets docs ∧
      ((∀ packet ∈ packets, ∀ text, S.encode packet = .ok text → S.decode text = .ok packet) →
        docs.map (S.report converter) = packets.map fun p => Verdict.convert converter (.ok p)) ∧
      (∀ cs, (∀ c ∈ cs, c ≠ []) → cs.flatten = stream → ∃ st, KeepsNothing st ∧ ∀ vs st',
        StreamDataConsumer.Reads (S.protocol converter) .init cs vs st' ↔
          vs = docs.map (S.report converter) ∧ st' = st) ∧
      (∀ cs, (∀ c ∈ cs, c ≠ []) → cs.flatten = stream → ∀ vs st,
        BufferedStreamDataConsumer.Reads (S.bufferedProtocol converter) (.init hint) cs vs st →
          vs = docs.map (S.report converter) ∧ BufferKeepsNothing S.limit st) ∧
      (∀ cs, (∀ c ∈ cs, c ≠ []) → ∀ c t, c ≠ [] → cs.flatten ++ c ++ t = stream → ∀ vs st,
        BufferedStreamDataConsumer.Reads (S.bufferedProtocol converter) (.init hint) cs vs st →
        ∃ start st₁, st.getWriteBuffer (S.bufferedProtocol converter) = (.ok start, st₁) ∧
          0 < st₁.nbytes start ∧ (c.length ≤ st₁.nbytes start → ∃ ws st',
            BufferedStreamDataConsumer.Reads (S.bufferedProtocol converter) st [c] ws st')) := by
  obtain ⟨hdocs, hrest, -⟩ := outs_encodings hlines hcodec hjson hstream
  have hwithin := handles_encodings hlines hcodec hjson hstream hcaught
  have hclosed := handles_closed (S := S) (within_closed S.limit)
  have hL : ∀ n, ((S.bufferedProtocol converter).createBuffer n).length = S.limit :=
    fun _ => List.length_replicate
  refine ⟨documents.outs stream, hdocs, fun hdecode => ?_, fun cs hne hcs => ?_,
    fun cs hne hcs vs st h => ?_, fun cs hne c t hc hcs vs st h => ?_⟩
  · clear hrest hstream hwithin
    generalize documents.outs stream = docs at hdocs
    induction hdocs with
    | nil => rfl
    | @cons packet document packets docs hser _ ih =>
      rw [List.map_cons, List.map_cons, report,
        verdict_encoding hcodec hser (hdecode packet (by simp)),
        ih (fun p hp => hjson p (by simp [hp])) (fun p hp => hcaught p (by simp [hp]))
          fun p hp => hdecode p (by simp [hp])]
  · subst hcs
    obtain ⟨st, h1, h2⟩ := StreamDataConsumer.reads_iff (implements converter hlines) hclosed
      (StreamDataConsumer.rep_init _ _) hne hwithin
    rw [List.nil_append, hrest] at h1
    exact ⟨st, keepsNothing_of_rep h1, h2⟩
  · subst hcs
    obtain ⟨h1, b, h2, h3⟩ := BufferedStreamDataConsumer.reads_spec (bufferImplements converter hlines)
      hL S.limit_pos hclosed cs _ [] (BufferedStreamDataConsumer.rep_init _ _) hne hwithin h
    rw [List.nil_append] at h1 h3
    rw [documents_norm, hrest] at h3
    exact ⟨h1, bufferKeepsNothing_of_rep h2 h3⟩
  · subst hcs
    have hc' : S.Handles documents (Within S.limit) (cs.flatten ++ c) := hclosed.of_append hwithin
    obtain ⟨-, b, h2, h3⟩ := BufferedStreamDataConsumer.reads_spec (bufferImplements converter hlines)
      hL S.limit_pos hclosed cs _ [] (BufferedStreamDataConsumer.rep_init _ _) hne
      (hclosed.of_append hc') h
    rw [List.nil_append, documents_norm] at h3
    have hbc : S.Handles documents (Within S.limit) (b ++ c) := by
      have hrest' := hclosed.rest _ _ hc'
      rw [← hclosed.norm, ← h3, documents_norm, strip_append_strip] at hrest'
      exact hclosed.norm.1 hrest'
    obtain ⟨start, st₁, h4, h5, h6⟩ := BufferedStreamDataConsumer.read_of_rep
      (bufferImplements converter hlines) hL S.limit_pos hclosed h2 hc hbc
    refine ⟨start, st₁, h4, h5, fun hl => ?_⟩
    obtain ⟨st', h7, -⟩ := h6 hl
    exact ⟨_, st', h7⟩

/-- A serializer of two documents, an object and a string. -/
def JSONSerializer.ofBool : JSONSerializer Bool where
  encode b := .ok (if b then "\x7b\"a\":[\"\x7d\\\"\",[true,-1]]\x7d" else "\"\\\\\x7b\"")
  decode text :=
    if text = "\x7b\"a\":[\"\x7d\\\"\",[true,-1]]\x7d" then .ok true
    else if text = "\"\\\\\x7b\"" then .ok false
    else .error (.decodeError ⟨"Expecting value: line 1 column 1 (char 0)", text, 0, 1, 1⟩)
  codec := .utf8 fun _ => "invalid start byte"
  limit := 32
  useLines := false
  debug := false
  limit_pos := by decide

theorem compactJson_object : CompactJson "\x7b\"a\":[\"\x7d\\\"\",[true,-1]]\x7d".toList := by
  have hscalar : ∀ text ∈ [['t', 'r', 'u', 'e'], ['-', '1']], CompactJson text := by
    intro text htext
    rcases List.mem_cons.1 htext with rfl | htext
    · refine .scalar (by decide) fun c hc => .inl ?_
      simp only [List.mem_cons, List.not_mem_nil, or_false] at hc
      rcases hc with rfl | rfl | rfl | rfl <;> decide
    · obtain rfl := List.mem_singleton.1 htext
      refine .scalar (by decide) fun c hc => ?_
      simp only [List.mem_cons, List.not_mem_nil, or_false] at hc
      rcases hc with rfl | rfl
      · exact .inr (.inr (.inl rfl))
      · exact .inl (by decide)
  have hstring : CompactJson (quoted ['}', '\\', '"']) :=
    .string (.plain (by decide) (by decide) (by decide) (.escape (by decide) .nil))
  have harray := CompactJson.array (List.forall_mem_cons.2 ⟨hstring,
    List.forall_mem_singleton.2 (CompactJson.array hscalar)⟩)
  have hobject : ∀ {text : List Char}, CompactJson text →
      CompactJson ('{' :: [','].intercalate ([(['a'], text)].map memberText) ++ ['}']) :=
    fun htext => .object (List.forall_mem_singleton.2
      (.plain (by decide) (by decide) (by decide) .nil)) (List.forall_mem_singleton.2 htext)
  exact hobject harray

theorem compactJson_string : CompactJson "\"\\\\\x7b\"".toList := by
  have hbody : StringBody ['\\', '\\', '{'] :=
    .escape (by decide) (.plain (by decide) (by decide) (by decide) .nil)
  exact .string hbody

/-- The encodings of the two documents, with a newline between them and a space at the end, are cut
    between a backslash and the character that it escapes. -/
def JSONSerializer.firstRead : Bytes := [123, 34, 97, 34, 58, 91, 34, 125, 92]

def JSONSerializer.secondRead : Bytes :=
  [34, 34, 44, 91, 116, 114, 117, 101, 44, 45, 49, 93, 93, 125, 10, 34, 92, 92, 123, 34, 32]

open JSONSerializer in
theorem JSONSerializer.reads_deliver_two : ∃ st buffered,
    StreamDataConsumer.Reads (ofBool.protocol none) .init [firstRead, secondRead]
      [.ok true, .ok false] st ∧
    BufferedStreamDataConsumer.Reads (ofBool.bufferedProtocol none) (.init 1)
      [firstRead, secondRead] [.ok true, .ok false] buffered := by
  have hencode : Utf8.encode "\x7b\"a\":[\"\x7d\\\"\",[true,-1]]\x7d" =
      [123, 34, 97, 34, 58, 91, 34, 125, 92, 34, 34, 44, 91, 116, 114, 117, 101, 44, 45, 49, 93, 93,
        125] := by decide
  have hencode' : Utf8.encode "\"\\\\\x7b\"" = [34, 92, 92, 123, 34] := by decide
  have hobject : ofBool.incrementalSerialize true =
      .ok [[123, 34, 97, 34, 58, 91, 34, 125, 92, 34, 34, 44, 91, 116, 114, 117, 101, 44, 45, 49, 93,
        93, 125]] := by
    simp only [incrementalSerialize, serialize, ofBool, if_true, Codec.utf8, hencode]
    rfl
  have hstring : ofBool.incrementalSerialize false =
      .ok [[34, 92, 92, 123, 34]] := by
    simp only [incrementalSerialize, serialize, ofBool, Bool.false_eq_true, if_false, Codec.utf8,
      hencode']
    rfl
  have hjson : ∀ packet ∈ [true, false], ∃ text, ofBool.encode packet = .ok text ∧
      CompactJson text.toList := by
    rintro (_ | _) -
    · exact ⟨_, rfl, compactJson_string⟩
    · exact ⟨_, rfl, compactJson_object⟩
  have hdecode : ∀ packet ∈ [true, false], ∀ text, ofBool.encode packet = .ok text →
      ofBool.decode text = .ok packet := by
    rintro (_ | _) - text ⟨⟩ <;> rfl
  have hcaught : ∀ packet ∈ [true, false], ∀ document,
      ofBool.serialize packet = .ok document →
        ofBool.Caught document := fun packet hpacket document hser =>
    caught_of_verdict (verdict_encoding rfl hser (hdecode packet hpacket))
  have hstream : ofBool.Stream [true, false]
      ([123, 34, 97, 34, 58, 91, 34, 125, 92, 34, 34, 44, 91, 116, 114, 117, 101, 44, 45, 49, 93, 93,
        125] ++ ([10] ++ ([34, 92, 92, 123, 34] ++ ([32] ++ [])))) :=
    .cons hobject (by decide) (List.forall_mem_singleton.2 (by decide))
      (.cons hstring (by decide) (List.forall_mem_singleton.2 (by decide)) .nil)
  obtain ⟨docs, -, hdocs, hplain, hbuffered, hroom⟩ :=
    reads_deliver_documents ofBool none 1 rfl rfl hjson hcaught hstream
  have hresults : docs.map (ofBool.report none) = [.ok true, .ok false] :=
    hdocs hdecode
  rw [hresults] at hplain hbuffered
  obtain ⟨st, -, hst⟩ := hplain [firstRead, secondRead] (by decide) rfl
  -- the first read completes no document, and the second one fits the buffer
  have hfirst : BufferedStreamDataConsumer.Received (ofBool.bufferedProtocol none)
      (.init 1) firstRead .stopIteration _ := ⟨_, _, rfl, by decide, rfl⟩
  obtain ⟨start, st₁, hget, -, hsecond⟩ := hroom [firstRead] (by decide) secondRead [] (by decide)
    rfl _ _ (.stop hfirst (.stop rfl) .nil)
  cases hget
  obtain ⟨ws, buffered, hreads⟩ := hsecond (by decide)
  have hboth := BufferedStreamDataConsumer.Reads.stop hfirst (.stop rfl) hreads
  obtain ⟨hws, -⟩ := hbuffered _ (by decide) rfl _ _ hboth
  rw [hws] at hboth
  exact ⟨st, buffered, (hst _ _).2 ⟨rfl, rfl⟩, hboth⟩

end EasyNetwork
