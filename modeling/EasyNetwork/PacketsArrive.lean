/-
  The serializers whose packets arrive at the other end of a connection.

  Each of them has its own frames: what ends with a separator (`separated_packets_arrive`), such as
  the tokens of another serializer (`tokens_arrive`), a line (`line_packets_arrive`), a number of bytes
  (`fixed_size_packets_arrive`), a JSON document, on a line of its own or not (`json_packets_arrive`).
-/
import EasyNetwork.Base64Encoder
import EasyNetwork.Connection
import EasyNetwork.FixedSize
import EasyNetwork.JsonCuttings
import EasyNetwork.JsonLines
import EasyNetwork.StringLine

namespace EasyNetwork

open Framing Search

variable {Q P ι ε : Type}

theorem StreamDataProducer.generate_eq_ok {convertToDtoPacket : Q → Except ε P}
    {incrementalSerialize : P → Except ε (List Bytes)} {packet : Q} {chunks : List Bytes} :
    generate (generateChunks convertToDtoPacket incrementalSerialize) packet = .ok chunks ↔
      ∃ dto, convertToDtoPacket packet = .ok dto ∧ incrementalSerialize dto = .ok chunks := by
  unfold generate generateChunks
  rcases hdto : convertToDtoPacket packet with e | dto
  · exact ⟨nofun, by rintro ⟨dto, hc, -⟩; exact nomatch hc⟩
  · show (incrementalSerialize dto).mapError _ = .ok chunks ↔ _
    rcases hser : incrementalSerialize dto with e | chunks'
    · constructor
      · nofun
      · rintro ⟨dto', h1, h2⟩
        cases h1
        exact nomatch hser.symm.trans h2
    · constructor
      · intro h
        cases h
        exact ⟨dto, rfl, hser⟩
      · rintro ⟨dto', h1, h2⟩
        cases h1
        cases hser.symm.trans h2
        rfl

/-- Two calls have sent their packets. -/
theorem Connection.two_sent {generate : Q → Except String (List Bytes)} {s : ClientSend.State Q}
    {p q : Q} (cs ds : List Bytes) (hinv : ClientSend.Inv generate s) (hcalls : s.lock.calls = 2)
    (hp : generate p = .ok cs) (hq : generate q = .ok ds)
    (haccepted : s.accepted = [(0, cs.flatten), (1, ds.flatten)])
    (h0 : s.phase 0 = .ended (.sendPacket p) .returned)
    (h1 : s.phase 1 = .ended (.sendPacket q) .returned) :
    Connection.sent generate s = [p, q] ∧ Connection.Intact generate s ∧
      ∀ n packet, (s.phase n).sends? = some packet → packet = p ∨ packet = q := by
  have hwhole0 : Connection.whole? generate s (0, cs.flatten) = some p :=
    Connection.whole?_eq_some.2 ⟨by rw [h0]; rfl, cs, hp, rfl⟩
  have hwhole1 : Connection.whole? generate s (1, ds.flatten) = some q :=
    Connection.whole?_eq_some.2 ⟨by rw [h1]; rfl, ds, hq, rfl⟩
  refine ⟨?_, ?_, ?_⟩
  · rw [Connection.sent, haccepted, List.filterMap_cons_some hwhole0,
      List.filterMap_cons_some hwhole1, List.filterMap_nil]
  · intro x hx packet outcome hphase chunks hchunks
    rw [haccepted] at hx
    simp only [List.mem_cons, List.not_mem_nil, or_false] at hx
    rcases hx with rfl | rfl
    · cases h0.symm.trans hphase
      cases hp.symm.trans hchunks
      exact .inr rfl
    · cases h1.symm.trans hphase
      cases hq.symm.trans hchunks
      exact .inr rfl
  · intro n packet hpacket
    rcases Nat.lt_or_ge n 2 with hn | hn
    · obtain rfl | rfl : n = 0 ∨ n = 1 := by omega
      · rw [h0] at hpacket
        cases hpacket
        exact .inl rfl
      · rw [h1] at hpacket
        cases hpacket
        exact .inr rfl
    · rw [hinv.fresh n (hcalls.trans_le hn)] at hpacket
      cases hpacket

/-- What is seen of a run in which two calls send their packets. -/
structure Connection.View (Q : Type) where
  wire : Bytes
  reading : Bool
  calls : ℕ
  accepted : List (ℕ × Bytes)
  first : ClientSend.Phase Q
  second : ClientSend.Phase Q
  deriving DecidableEq

def Connection.view {σ : Type} (s : Connection.State Q σ P ι) : Connection.View Q :=
  ⟨s.wire, s.receiver.reading.isSome, s.sender.lock.calls, s.sender.accepted, s.sender.phase 0,
    s.sender.phase 1⟩

/-- Two calls have sent their packets, and nothing is in flight. -/
theorem Connection.Arrive.two {σ : Type} {generate : Q → Except String (List Bytes)}
    {f : Feeder σ Bytes WriteBuffer (NextResult P ι)} {s₀ : σ} {sendable : Q → Prop}
    {received : Q → P} (harrive : Connection.Arrive generate f s₀ sendable received)
    {as : List (Connection.Action Q)} {p q : Q} (cs ds : List Bytes)
    (hrun : (Trans.run (Connection.step generate f) { receiver := { consumer := s₀ } } as).map
      Connection.view = some ⟨[], true, 2, [(0, cs.flatten), (1, ds.flatten)],
        .ended (.sendPacket p) .returned, .ended (.sendPacket q) .returned⟩)
    (hp : generate p = .ok cs) (hq : generate q = .ok ds) (hsendp : sendable p)
    (hsendq : sendable q) : ∃ s,
      Trans.run (Connection.step generate f) { receiver := { consumer := s₀ } } as = some s ∧
      s.receiver.results = [.packet (received p), .packet (received q)] := by
  obtain ⟨s, hs, hview⟩ := Option.map_eq_some_iff.1 hrun
  simp only [Connection.view, Connection.View.mk.injEq] at hview
  obtain ⟨hwire, hreading, hcalls, haccepted, h0, h1⟩ := hview
  obtain ⟨hsent, hintact, hpackets⟩ :=
    Connection.two_sent cs ds (Connection.run_sender_inv hs) hcalls hp hq haccepted h0 h1
  have hdelivers := harrive as s hs hintact fun n packet hpacket => by
    rcases hpackets n packet hpacket with rfl | rfl
    · exact hsendp
    · exact hsendq
  refine ⟨s, hs, ?_⟩
  have hall := hdelivers.all hwire (Option.isSome_iff_ne_none.1 hreading)
  rw [hsent] at hall
  exact hall

/-- Two calls send packets of `n` and `m` bytes, one after the other; the first read takes the first
    packet and a byte of the second one. -/
def Connection.twoCalls (p q : Q) (n m : ℕ) : List (Connection.Action Q) :=
  [.recvPacket ⊤, .send (.call (.sendPacket p)), .send (.call (.sendPacket q)),
    .send (.connect 0 .connected), .send (.accept 0 n), .send (.done 0 false), .send (.wake 1),
    .send (.connect 1 .connected), .send (.accept 1 m), .send (.done 1 false),
    .received (n + 1) 0, .recvPacket ⊤, .received (m - 1) 0, .recvPacket ⊤]

/-! ## Separated packets -/

namespace AutoSeparatedPacketSerializer

/-- The packet is sent with a separator at its end and nowhere before, in less than `limit` bytes,
    and is received as `received packet`. -/
def Transmits (S : AutoSeparatedPacketSerializer P ι)
    (convertToDtoPacket : Q → Except (SerializeError P) P) (converter : Converter P ι)
    (received : Q → P) (packet : Q) : Prop :=
  ∃ dto data, convertToDtoPacket packet = .ok dto ∧
    S.incrementalSerialize dto = .ok [data ++ S.separator] ∧
    find S.separator (data ++ S.separator) = some data.length ∧
    data.length + S.separator.length + 1 ≤ S.limit ∧ S.report converter data = .ok (received packet)

theorem lossless (S : AutoSeparatedPacketSerializer P ι)
    (convertToDtoPacket : Q → Except (SerializeError P) P) (converter : Converter P ι)
    (received : Q → P) (hlimit : 2 ≤ S.limit) :
    Connection.Lossless
      (StreamDataProducer.generate (generateChunks convertToDtoPacket S.incrementalSerialize))
      (segmenter S.separator S.separator_ne) (S.report converter) (Fits S.separator_ne S.limit)
      (S.Transmits convertToDtoPacket converter received) received := by
  refine .of_frames (fun data => data.length + S.separator.length + 1 ≤ S.limit) ?_
    fun hls => fits_flatten S.separator_ne hlimit hls
  rintro packet chunks ⟨dto, data, hdto, hser, hfind, hle, hreport⟩ hchunks
  obtain ⟨dto', hdto', hser'⟩ := StreamDataProducer.generate_eq_ok.1 hchunks
  cases hdto.symm.trans hdto'
  cases hser.symm.trans hser'
  rw [List.flatten_singleton]
  exact ⟨data, isFrame_segment S.separator_ne hfind, hreport, hle⟩

/-- **Separated packets arrive**, with either receiver. -/
theorem separated_packets_arrive (S : AutoSeparatedPacketSerializer P ι)
    (convertToDtoPacket : Q → Except (SerializeError P) P) (converter : Converter P ι)
    (received : Q → P) (maxRecvSize : ℕ) (hmax : 0 < maxRecvSize) (hint : ℕ)
    (hlimit : 2 ≤ S.limit) :
    Connection.Arrive
      (StreamDataProducer.generate (generateChunks convertToDtoPacket S.incrementalSerialize))
      (StreamEndpoint.dataReceiver (S.protocol converter) maxRecvSize) .init
      (S.Transmits convertToDtoPacket converter received) received ∧
    Connection.Arrive
      (StreamDataProducer.generate (generateChunks convertToDtoPacket S.incrementalSerialize))
      (StreamEndpoint.bufferedReceiver (S.bufferedProtocol converter)) (.init hint)
      (S.Transmits convertToDtoPacket converter received) received :=
  Connection.arrive (fits_closed S.separator_ne S.limit)
    (S.lossless convertToDtoPacket converter received hlimit) (implements converter) hmax
    (bufferImplements converter) List.length_replicate S.limit_pos

/-- Two lines, of which the second one is sent while the first one is being received. -/
theorem separated_packets_arrive_two :
    let S : AutoSeparatedPacketSerializer Bytes Unit :=
      { raw [10] 16 (by decide) (by decide) with incrementalSerializeCheckSeparator := false }
    let generate := StreamDataProducer.generate (generateChunks .ok S.incrementalSerialize)
    ∃ s, Trans.run (Connection.step generate (StreamEndpoint.dataReceiver (S.protocol none) 64))
      { receiver := { consumer := .init } } [.recvPacket ⊤, .send (.call (.sendPacket [65])),
        .send (.call (.sendPacket [66])), .send (.connect 0 .connected), .send (.accept 0 1),
        .send (.accept 0 1), .send (.done 0 false), .send (.wake 1), .send (.connect 1 .connected),
        .send (.accept 1 1), .received 3 0, .send (.accept 1 1), .send (.done 1 false),
        .recvPacket ⊤, .received 1 0, .recvPacket ⊤] = some s ∧
      s.receiver.results = [.packet [65], .packet [66]] := by
  intro S generate
  have htransmits : ∀ c : UInt8, c = 65 ∨ c = 66 → S.Transmits .ok none id [c] := by
    rintro c (rfl | rfl) <;> exact ⟨_, _, rfl, rfl, by decide, by decide, rfl⟩
  exact (separated_packets_arrive S .ok none id 64 (by decide) 1 (by decide)).1.two [[65, 10]]
    [[66, 10]] (by decide +kernel) rfl rfl (htransmits 65 (.inl rfl)) (htransmits 66 (.inr rfl))

end AutoSeparatedPacketSerializer

/-! ## Tokens -/

namespace Base64EncoderSerializer

/-- The data of the packet has a token, in less than `limit` bytes with the separator; what the
    wrapped serializer makes of it is received as `received packet`. -/
def Transmits (S : Base64EncoderSerializer P ι)
    (convertToDtoPacket : Q → Except (SerializeError P) P) (converter : Converter P ι)
    (received : Q → P) (packet : Q) : Prop :=
  ∃ dto data dto', convertToDtoPacket packet = .ok dto ∧ S.serializer.serialize dto = .ok data ∧
    S.token data ≠ [] ∧ (S.token data).length + S.separator.length + 1 ≤ S.limit ∧
    S.serializer.deserialize data = .ok dto' ∧
    Verdict.convert converter (.ok dto') = .ok (received packet)

/-- A token that the separator does not occur in is sent as it is. -/
theorem incrementalSerialize_token {S : Base64EncoderSerializer P ι} {dto : P} {data : Bytes}
    (hser : S.serializer.serialize dto = .ok data) (htoken : S.token data ≠ [])
    (hnot : ¬ S.separator <:+: S.token data) :
    S.autoSeparated.incrementalSerialize dto = .ok [S.token data ++ S.separator] := by
  have hsuffix : ¬ S.separator <:+ S.token data := fun h => hnot h.isInfix
  rw [AutoSeparatedPacketSerializer.incrementalSerialize, autoSeparated_serialize hser]
  simp only [autoSeparated, removeSeparators_of_not_suffix hsuffix, hnot, htoken, hsuffix, if_false,
    ite_self]

/-- What the other end makes of a token. -/
theorem verdict_token {S : Base64EncoderSerializer P ι} {data : Bytes} {dto : P}
    (h : S.serializer.deserialize data = .ok dto) :
    S.autoSeparated.verdict (S.token data) = .ok dto := by
  have hdeserialize : S.autoSeparated.deserialize (S.token data) = .ok dto :=
    (deserialize_token S data).trans h
  rw [AutoSeparatedPacketSerializer.verdict, hdeserialize]

theorem Transmits.autoSeparated {S : Base64EncoderSerializer P ι}
    {convertToDtoPacket : Q → Except (SerializeError P) P} {converter : Converter P ι}
    {received : Q → P} {packet : Q} (h : S.Transmits convertToDtoPacket converter received packet)
    {c : UInt8} (hc : c ∈ S.separator) (hforeign : ¬ S.alphabet.IsTokenByte c) :
    S.autoSeparated.Transmits convertToDtoPacket converter received packet := by
  obtain ⟨dto, data, dto', hdto, hser, htoken, hlen, hdeserialize, hreceived⟩ := h
  have hnot : ¬ S.separator <:+: S.token data := fun h => hforeign (mem_token (h.subset hc))
  refine ⟨dto, S.token data, hdto, incrementalSerialize_token hser htoken hnot, ?_, hlen, ?_⟩
  · exact (AutoSeparatedPacketSerializer.find_append_separator hnot).2
      (token_suits_of_foreign hc hforeign data).2
  · rw [AutoSeparatedPacketSerializer.report, verdict_token hdeserialize]
    exact hreceived

/-- **Tokens arrive**, with either receiver, if no token has all the bytes of the separator: what
comes out is what the wrapped serializer makes of the data it has serialized, with a checksum or
not. -/
theorem tokens_arrive (S : Base64EncoderSerializer P ι)
    (convertToDtoPacket : Q → Except (SerializeError P) P) (converter : Converter P ι)
    (received : Q → P) (maxRecvSize : ℕ) (hmax : 0 < maxRecvSize) (hint : ℕ)
    (hlimit : 2 ≤ S.limit) (hforeign : ∃ c ∈ S.separator, ¬ S.alphabet.IsTokenByte c) :
    Connection.Arrive
      (StreamDataProducer.generate
        (generateChunks convertToDtoPacket S.autoSeparated.incrementalSerialize))
      (StreamEndpoint.dataReceiver (S.autoSeparated.protocol converter) maxRecvSize) .init
      (S.Transmits convertToDtoPacket converter received) received ∧
    Connection.Arrive
      (StreamDataProducer.generate
        (generateChunks convertToDtoPacket S.autoSeparated.incrementalSerialize))
      (StreamEndpoint.bufferedReceiver (S.autoSeparated.bufferedProtocol converter)) (.init hint)
      (S.Transmits convertToDtoPacket converter received) received := by
  obtain ⟨c, hc, hforeign⟩ := hforeign
  have hlossless := S.autoSeparated.lossless convertToDtoPacket converter received hlimit
  exact Connection.arrive
    (fits_closed S.autoSeparated.separator_ne S.autoSeparated.limit)
    (hlossless.imp fun _ h => h.autoSeparated hc hforeign)
    (AutoSeparatedPacketSerializer.implements converter) hmax
    (AutoSeparatedPacketSerializer.bufferImplements converter) List.length_replicate
    S.autoSeparated.limit_pos

/-- The byte strings `A` and `B`, as the tokens `QQ==` and `Qg==`, each on a line. -/
theorem tokens_arrive_two :
    let S := rawEncoder [13, 10] (by decide)
    let generate :=
      StreamDataProducer.generate (generateChunks .ok S.autoSeparated.incrementalSerialize)
    ∃ s, Trans.run
        (Connection.step generate (StreamEndpoint.bufferedReceiver (S.autoSeparated.bufferedProtocol none)))
        { receiver := { consumer := .init 8 } } (Connection.twoCalls [65] [66] 6 6) = some s ∧
      s.receiver.results = [.packet [65], .packet [66]] := by
  intro S generate
  have hforeign : ¬ S.alphabet.IsTokenByte 13 :=
    Base64Alphabet.not_isTokenByte_of_isspace (by decide)
  have htransmits : ∀ c : UInt8, c = 65 ∨ c = 66 → S.Transmits .ok none id [c] := by
    rintro c (rfl | rfl) <;> exact ⟨_, _, _, rfl, rfl, by decide, by decide, rfl, rfl⟩
  exact (S.tokens_arrive .ok none id 8 (by decide) 8 (by decide) ⟨13, by decide, hforeign⟩).2.two
    [[81, 81, 61, 61, 13, 10]] [[81, 103, 61, 61, 13, 10]] (by decide +kernel)
    (by decide +kernel) (by decide +kernel) (htransmits 65 (.inl rfl)) (htransmits 66 (.inr rfl))

end Base64EncoderSerializer

/-! ## Lines -/

namespace StringLineSerializer

/-- The text is a line, without a newline or with one at its end, in less than `limit` bytes, and
    is received as `received packet`. -/
def Transmits (S : StringLineSerializer) (convertToDtoPacket : Q → Except String String)
    (converter : Converter String Bytes) (received : Q → String) (packet : Q) : Prop :=
  ∃ text data, convertToDtoPacket packet = .ok text ∧
    (S.codec.encode text = .ok data ∧ data ≠ [] ∨
      S.codec.encode text = .ok (data ++ S.separator)) ∧
    ¬ S.separator <:+: data ∧ data.length + S.separator.length + 1 ≤ S.limit ∧
    S.report converter data = .ok (received packet)

/-- The packet is sent as `line`, without a newline or with one at its end, in less than `limit` bytes.
    The codec gives back what it has encoded, and encodes the newline by the bytes of the separator. -/
structure SendsLine (S : StringLineSerializer) (convertToDtoPacket : Q → Except String String)
    (packet : Q) (line : String) (data : Bytes) : Prop where
  packet : convertToDtoPacket packet = .ok line ∧ data ≠ [] ∨
    convertToDtoPacket packet = .ok (line ++ S.newline.text)
  encode : S.codec.encode line = .ok data
  decode : S.codec.decode data = .ok line
  encode_newline : S.codec.encode (line ++ S.newline.text) = .ok (data ++ S.separator)
  decode_newline : S.codec.decode (data ++ S.separator) = .ok (line ++ S.newline.text)
  separator : ¬ S.separator <:+: data
  short : data.length + S.separator.length + 1 ≤ S.limit

/-- **What is received of a line**: the line itself, or with its newline if `keep_end`. -/
theorem SendsLine.transmits {S : StringLineSerializer}
    {convertToDtoPacket : Q → Except String String} {packet : Q} {line : String} {data : Bytes}
    (h : S.SendsLine convertToDtoPacket packet line data) (converter : Converter String Bytes)
    {received : Q → String}
    (hreceived : Verdict.convert converter (.ok (if S.keepEnd then line ++ S.newline.text else line)) =
      .ok (received packet)) : S.Transmits convertToDtoPacket converter received packet := by
  have hreport : S.report converter data = .ok (received packet) := by
    rw [report, ← hreceived]
    cases S.keepEnd with
    | false => simp only [Bool.false_eq_true, if_false, verdict, h.decode]
    | true => simp only [if_true, verdict, h.decode_newline]
  rcases h.packet with ⟨hline, hne⟩ | hline
  · exact ⟨_, data, hline, .inl ⟨h.encode, hne⟩, h.separator, h.short, hreport⟩
  · exact ⟨_, data, hline, .inr h.encode_newline, h.separator, h.short, hreport⟩

/-- UTF-8 gives back what it has encoded, and encodes a newline by its bytes. -/
theorem sendsLine_utf8 {S : StringLineSerializer} {describe : Bytes → String}
    (hcodec : S.codec = .utf8 describe) {convertToDtoPacket : Q → Except String String} {packet : Q}
    {line : String}
    (hpacket : convertToDtoPacket packet = .ok line ∧ line ≠ "" ∨
      convertToDtoPacket packet = .ok (line ++ S.newline.text))
    (hseparator : ¬ S.separator <:+: Utf8.encode line)
    (hshort : (Utf8.encode line).length + S.separator.length + 1 ≤ S.limit) :
    S.SendsLine convertToDtoPacket packet line (Utf8.encode line) := by
  have hnewline : Utf8.encode (line ++ S.newline.text) = Utf8.encode line ++ S.separator := by
    rw [Utf8.encode, String.toList_append, Utf8.encodeList_append, separator]
    cases S.newline <;> rfl
  have hne : line ≠ "" → Utf8.encode line ≠ [] := by
    intro hline hnil
    have hdecode := Utf8.decode_encode line
    rw [hnil] at hdecode
    exact hline (Option.some.inj hdecode).symm
  exact {
    packet := hpacket.imp_left fun h => ⟨h.1, hne h.2⟩
    encode := by rw [hcodec]; rfl
    decode := by simp only [hcodec, Codec.utf8, Utf8.decode_encode]
    encode_newline := by rw [hcodec, ← hnewline]; rfl
    decode_newline := by simp only [hcodec, Codec.utf8, ← hnewline, Utf8.decode_encode]
    separator := hseparator
    short := hshort }

/-- None of the newlines overlaps itself. -/
theorem find_newline {S : StringLineSerializer} {data : Bytes} (h : ¬ S.separator <:+: data) :
    find S.separator (data ++ S.separator) = some data.length := by
  refine (AutoSeparatedPacketSerializer.find_append_separator h).2 ?_
  rintro ⟨m, hpos, hlt, hperiod, -⟩
  unfold separator at hlt hperiod
  cases hnewline : S.newline <;> rw [hnewline] at hlt hperiod
  · exact absurd hlt (by simp only [Newline.separator, List.length_singleton]; omega)
  · exact absurd hlt (by simp only [Newline.separator, List.length_singleton]; omega)
  · obtain rfl : m = 1 := by
      simp only [Newline.separator, List.length_cons, List.length_nil] at hlt
      omega
    unfold List.HasPeriod at hperiod
    exact absurd hperiod (by decide)

theorem incrementalSerialize_line {S : StringLineSerializer} {text : String} {data : Bytes}
    (h : S.codec.encode text = .ok data ∧ data ≠ [] ∨
      S.codec.encode text = .ok (data ++ S.separator)) (hdata : ¬ S.separator <:+: data) :
    S.incrementalSerialize text = .ok [data ++ S.separator] := by
  unfold incrementalSerialize
  rcases h with ⟨h, hne⟩ | h <;> rw [h]
  · dsimp only
    rw [if_neg hne, if_neg fun hsuffix => hdata hsuffix.isInfix]
  · dsimp only
    rw [if_neg fun hnil => S.separator_ne (List.append_eq_nil_iff.1 hnil).2,
      if_pos (List.suffix_append _ _)]

theorem lossless (S : StringLineSerializer) (convertToDtoPacket : Q → Except String String)
    (converter : Converter String Bytes) (received : Q → String) (hlimit : 2 ≤ S.limit) :
    Connection.Lossless
      (StreamDataProducer.generate (generateChunks convertToDtoPacket S.incrementalSerialize))
      (segmenter S.separator S.separator_ne) (S.report converter) (Fits S.separator_ne S.limit)
      (S.Transmits convertToDtoPacket converter received) received := by
  refine .of_frames (fun data => data.length + S.separator.length + 1 ≤ S.limit) ?_
    fun hls => fits_flatten S.separator_ne hlimit hls
  rintro packet chunks ⟨text, data, htext, henc, hdata, hle, hreport⟩ hchunks
  obtain ⟨text', htext', hser⟩ := StreamDataProducer.generate_eq_ok.1 hchunks
  cases htext.symm.trans htext'
  cases (incrementalSerialize_line henc hdata).symm.trans hser
  rw [List.flatten_singleton]
  exact ⟨data, isFrame_segment S.separator_ne (find_newline hdata), hreport, hle⟩

/-- **Lines arrive**, with either receiver; each of them as itself, or with its newline if `keep_end`. -/
theorem line_packets_arrive (S : StringLineSerializer)
    (convertToDtoPacket : Q → Except String String) (converter : Converter String Bytes)
    (received : Q → String) (maxRecvSize : ℕ) (hmax : 0 < maxRecvSize) (hint : ℕ)
    (hlimit : 2 ≤ S.limit) :
    Connection.Arrive
      (StreamDataProducer.generate (generateChunks convertToDtoPacket S.incrementalSerialize))
      (StreamEndpoint.dataReceiver (S.protocol converter) maxRecvSize) .init
      (S.Transmits convertToDtoPacket converter received) received ∧
    Connection.Arrive
      (StreamDataProducer.generate (generateChunks convertToDtoPacket S.incrementalSerialize))
      (StreamEndpoint.bufferedReceiver (S.bufferedProtocol converter)) (.init hint)
      (S.Transmits convertToDtoPacket converter received) received ∧
    ∀ packet line data, S.SendsLine convertToDtoPacket packet line data →
      Verdict.convert converter (.ok (if S.keepEnd then line ++ S.newline.text else line)) =
        .ok (received packet) → S.Transmits convertToDtoPacket converter received packet := by
  refine and_assoc.1 ⟨?_, fun packet line data h => h.transmits converter⟩
  exact Connection.arrive (fits_closed S.separator_ne S.limit)
    (S.lossless convertToDtoPacket converter received hlimit) (implements converter) hmax
    (bufferImplements converter) List.length_replicate S.limit_pos

/-- The lines `A` and `B`, sent without and with a newline, and received with one. -/
theorem line_packets_arrive_two :
    let S : StringLineSerializer := ⟨.CRLF, .utf8 fun _ => "invalid data", 16, true, false, by decide⟩
    let generate := StreamDataProducer.generate (generateChunks .ok S.incrementalSerialize)
    ∃ s, Trans.run
        (Connection.step generate (StreamEndpoint.bufferedReceiver (S.bufferedProtocol none)))
        { receiver := { consumer := .init 8 } } (Connection.twoCalls "A" "B\r\n" 3 3) = some s ∧
      s.receiver.results = [.packet "A\r\n", .packet "B\r\n"] := by
  intro S generate
  have harrive := S.line_packets_arrive .ok none
    (fun text => if text = "A" then "A\r\n" else text) 8 (by decide) 8 (by decide)
  have hfirst : S.SendsLine .ok "A" "A" (Utf8.encode "A") :=
    sendsLine_utf8 rfl (.inl ⟨rfl, by decide⟩) (by decide) (by decide)
  have hsecond : S.SendsLine .ok "B\r\n" "B" (Utf8.encode "B") :=
    sendsLine_utf8 rfl (.inr rfl) (by decide) (by decide)
  exact harrive.2.1.two [[65, 13, 10]] [[66, 13, 10]] (by decide +kernel) (by decide +kernel)
    (by decide +kernel) (harrive.2.2 _ _ _ hfirst rfl) (harrive.2.2 _ _ _ hsecond rfl)

end StringLineSerializer

/-! ## Packets of a fixed size -/

namespace FixedSizePacketSerializer

/-- The packet is sent in `packet_size` bytes, and is received as `received packet`. -/
def Transmits (S : FixedSizePacketSerializer P ι) (serialize : P → Except String Bytes)
    (convertToDtoPacket : Q → Except String P) (converter : Converter P ι) (received : Q → P)
    (packet : Q) : Prop :=
  ∃ dto data, convertToDtoPacket packet = .ok dto ∧ serialize dto = .ok data ∧
    data.length = S.size ∧ S.report converter data = .ok (received packet)

theorem lossless (S : FixedSizePacketSerializer P ι) (serialize : P → Except String Bytes)
    (convertToDtoPacket : Q → Except String P) (converter : Converter P ι) (received : Q → P) :
    Connection.Lossless
      (StreamDataProducer.generate
        (generateChunks convertToDtoPacket (S.incrementalSerialize serialize)))
      (blocks S.size S.size_pos) (S.report converter) (fun _ => True)
      (S.Transmits serialize convertToDtoPacket converter received) received := by
  refine .of_frames (fun _ => True) ?_ fun _ _ => trivial
  rintro packet chunks ⟨dto, data, hdto, hser, hlen, hreport⟩ hchunks
  obtain ⟨dto', hdto', hser'⟩ := StreamDataProducer.generate_eq_ok.1 hchunks
  cases hdto.symm.trans hdto'
  simp only [incrementalSerialize, hser, hlen, ne_eq, not_true, if_false] at hser'
  cases hser'
  rw [List.flatten_singleton]
  exact ⟨data, isFrame_block hlen, hreport, trivial⟩

/-- **Packets of a fixed size arrive**, with either receiver. -/
theorem fixed_size_packets_arrive (S : FixedSizePacketSerializer P ι)
    (serialize : P → Except String Bytes) (convertToDtoPacket : Q → Except String P)
    (converter : Converter P ι) (received : Q → P) (maxRecvSize : ℕ) (hmax : 0 < maxRecvSize)
    (hint : ℕ) :
    Connection.Arrive
      (StreamDataProducer.generate
        (generateChunks convertToDtoPacket (S.incrementalSerialize serialize)))
      (StreamEndpoint.dataReceiver (S.protocol converter) maxRecvSize) .init
      (S.Transmits serialize convertToDtoPacket converter received) received ∧
    Connection.Arrive
      (StreamDataProducer.generate
        (generateChunks convertToDtoPacket (S.incrementalSerialize serialize)))
      (StreamEndpoint.bufferedReceiver (S.bufferedProtocol converter)) (.init hint)
      (S.Transmits serialize convertToDtoPacket converter received) received :=
  Connection.arrive ⟨fun _ => trivial, fun _ _ => trivial, Iff.rfl⟩
    (S.lossless serialize convertToDtoPacket converter received) (implements converter) hmax
    (bufferImplements converter (le_max_left S.size hint)) List.length_replicate
    (S.size_pos.trans_le (le_max_left _ _))

/-- Byte strings of length 2; the buffer has room for four of them. -/
theorem fixed_size_packets_arrive_two :
    let S : FixedSizePacketSerializer Bytes Unit := ⟨2, .ok, by decide⟩
    let generate := StreamDataProducer.generate (generateChunks .ok (S.incrementalSerialize .ok))
    ∃ s, Trans.run
        (Connection.step generate (StreamEndpoint.bufferedReceiver (S.bufferedProtocol none)))
        { receiver := { consumer := .init 8 } } (Connection.twoCalls [1, 2] [3, 4] 2 2) = some s ∧
      s.receiver.results = [.packet [1, 2], .packet [3, 4]] := by
  intro S generate
  exact (S.fixed_size_packets_arrive .ok .ok none id 8 (by decide) 8).2.two [[1, 2]] [[3, 4]]
    (by decide +kernel) rfl rfl ⟨_, _, rfl, rfl, rfl, rfl⟩ ⟨_, _, rfl, rfl, rfl, rfl⟩

end FixedSizePacketSerializer

/-! ## JSON documents -/

namespace JSONSerializer

/-- The packet is sent as a compact JSON text, in less than `limit` bytes; the decoder inverts the
    encoder on it, and it is received as `received packet`. -/
def Transmits (S : JSONSerializer P) (convertToDtoPacket : Q → Except String P)
    (converter : Converter P JsonErrorInfo) (received : Q → P) (packet : Q) : Prop :=
  ∃ dto text, convertToDtoPacket packet = .ok dto ∧ S.encode dto = .ok text ∧
    CompactJson text.toList ∧ S.decode text = .ok dto ∧
    (∀ chunks, S.incrementalSerialize dto = .ok chunks → chunks.flatten.length < S.limit) ∧
    Verdict.convert converter (.ok dto) = .ok (received packet)

section
variable {S : JSONSerializer P} {describe : Bytes → String} {dto : P} {text : String}
  {chunks : List Bytes} (hcodec : S.codec = .utf8 describe) (henc : S.encode dto = .ok text)
include hcodec henc

theorem serialize_eq : S.serialize dto = .ok (Utf8.encode text) := by
  simp only [serialize, henc, hcodec, Codec.utf8]

omit hcodec henc in
theorem isPlain_of_not_object {document : Bytes} (h : JsonParser.IsDocument document)
    (hplain : (!startsWithObjectStart document) = true) : JsonParser.IsPlain document := by
  cases h with
  | frame ho h =>
    rw [startsWithObjectStart, ho] at hplain
    cases hplain
  | plain hb _ _ => exact ⟨_, _, rfl, hb⟩

/-- A document is not complete before its last byte, or, without an end of its own, before the newline. -/
theorem isFrame_document (hlines : S.useLines = false) (hjson : CompactJson text.toList)
    (hchunks : S.incrementalSerialize dto = .ok chunks) :
    IsFrame JsonParser.documents chunks.flatten (Utf8.encode text) where
  dec := by
    have h := (dec_encoding hlines hcodec henc hjson hchunks []).1
    rwa [List.append_nil] at h
  incomplete := by
    intro b t hbt ht
    have hwhole := (dec_encoding hlines hcodec henc hjson hchunks []).1
    rw [List.append_nil, hbt] at hwhole
    have hdocument := JsonParser.isDocument_encode hjson
    simp only [incrementalSerialize, serialize_eq hcodec henc, hlines, Bool.false_or,
      Except.ok.injEq] at hchunks
    subst hchunks
    rw [List.flatten_singleton] at hbt
    rcases hdec : JsonParser.documents.dec b with _ | ⟨o, r⟩
    · rfl
    · exfalso
      rw [JsonParser.documents.dec_append t hdec] at hwhole
      obtain ⟨rfl, -⟩ := Prod.mk.inj (Option.some.inj hwhole)
      -- what has been received has all of the document
      obtain ⟨e, hend, hpos, ho, -⟩ := JsonParser.documents_dec_some.1 hdec
      have hle := JsonParser.documentEnd_le hend
      have hlen := congrArg List.length ho
      have hstrip := (JsonParser.strip_suffix b).length_le
      have htpos := List.length_pos_iff.2 ht
      rw [List.length_take, Nat.min_eq_left hle] at hlen
      split_ifs at hbt with hplain
      · have hb : b = Utf8.encode text := by
          have hlens := congrArg List.length hbt
          rw [List.length_append, List.length_append, List.length_singleton] at hlens
          exact (List.append_inj hbt (by omega)).1.symm
        have hnone := hdocument.documentEnd_none (isPlain_of_not_object hdocument hplain)
        have hstripped := hdocument.strip_eq []
        rw [List.append_nil] at hstripped
        rw [hb, Utf8.encode, hstripped] at hend
        cases hnone.symm.trans hend
      · have hlens := congrArg List.length hbt
        rw [List.length_append] at hlens
        omega

/-- A line has no newline but the one at its end. -/
theorem isFrame_line (hlines : S.useLines = true) (hjson : CompactJson text.toList)
    (hchunks : S.incrementalSerialize dto = .ok chunks) :
    IsFrame (segmenter [10] newline_ne) chunks.flatten (Utf8.encode text) := by
  simp only [incrementalSerialize, serialize_eq hcodec henc, hlines, Bool.true_or, if_true,
    Except.ok.injEq] at hchunks
  subst hchunks
  rw [List.flatten_singleton]
  refine isFrame_segment newline_ne ?_
  have hmem := newline_notMem_encode hjson
  refine (AutoSeparatedPacketSerializer.find_append_separator fun hsub => ?_).2 ?_
  · exact hmem (hsub.subset List.mem_cons_self)
  · rintro ⟨m, hpos, hlt, -⟩
    rw [List.length_singleton] at hlt
    omega

end

section
variable (S : JSONSerializer P) (convertToDtoPacket : Q → Except String P)
  (converter : Converter P JsonErrorInfo) (received : Q → P) {describe : Bytes → String}
  (hcodec : S.codec = .utf8 describe)
include hcodec

theorem report_text {dto : P} {text : String} {packet : Q} (henc : S.encode dto = .ok text)
    (hdecode : S.decode text = .ok dto)
    (hconvert : Verdict.convert converter (.ok dto) = .ok (received packet)) :
    S.report converter (Utf8.encode text) = .ok (received packet) ∧
      S.Caught (Utf8.encode text) := by
  have hverdict : S.verdict (Utf8.encode text) = .ok dto := by
    refine verdict_encoding hcodec (serialize_eq hcodec henc) fun text' henc' => ?_
    cases henc.symm.trans henc'
    exact hdecode
  exact ⟨by rw [report, hverdict, hconvert], caught_of_verdict hverdict⟩

theorem lossless_documents (hlines : S.useLines = false) :
    Connection.Lossless
      (StreamDataProducer.generate (generateChunks convertToDtoPacket S.incrementalSerialize))
      JsonParser.documents (S.report converter)
      (S.Handles JsonParser.documents (JsonParser.Within S.limit))
      (S.Transmits convertToDtoPacket converter received) received := by
  refine .of_frames (fun document => document.length < S.limit ∧ S.Caught document) ?_
    fun hls hos => ?_
  · rintro packet chunks ⟨dto, text, hdto, henc, hjson, hdecode, hshort, hconvert⟩ hchunks
    obtain ⟨dto', hdto', hser⟩ := StreamDataProducer.generate_eq_ok.1 hchunks
    cases hdto.symm.trans hdto'
    have hle := (dec_encoding hlines hcodec henc hjson hser []).2
    obtain ⟨hreport, hcaught⟩ := S.report_text converter received hcodec henc hdecode hconvert
    exact ⟨Utf8.encode text, isFrame_document hcodec henc hlines hjson hser, hreport,
      hle.trans_lt (hshort _ hser), hcaught⟩
  · obtain ⟨houts, hrest⟩ := drain_flatten hls
    refine ⟨⟨?_, ?_, ?_⟩, ?_⟩
    · rw [houts]
      exact fun o ho => (hos o ho).1
    · rw [hrest]
      exact S.limit_pos
    · rw [hrest]
      nofun
    · rw [houts]
      exact fun o ho => (hos o ho).2

theorem lossless_lines (hlines : S.useLines = true) (hlimit : 2 ≤ S.limit) :
    Connection.Lossless
      (StreamDataProducer.generate (generateChunks convertToDtoPacket S.incrementalSerialize))
      (segmenter [10] newline_ne) (S.report converter)
      (S.Handles (segmenter [10] newline_ne) (Fits newline_ne S.limit))
      (S.Transmits convertToDtoPacket converter received) received := by
  refine .of_frames (fun line => line.length + 1 + 1 ≤ S.limit ∧ S.Caught line) ?_
    fun hls hos => ⟨fits_flatten newline_ne hlimit hls fun o ho => (hos o ho).1, ?_⟩
  swap
  · rw [(drain_flatten hls).1]
    exact fun o ho => (hos o ho).2
  rintro packet chunks ⟨dto, text, hdto, henc, hjson, hdecode, hshort, hconvert⟩ hchunks
  obtain ⟨dto', hdto', hser⟩ := StreamDataProducer.generate_eq_ok.1 hchunks
  cases hdto.symm.trans hdto'
  obtain ⟨hreport, hcaught⟩ := S.report_text converter received hcodec henc hdecode hconvert
  refine ⟨Utf8.encode text, isFrame_line hcodec henc hlines hjson hser, hreport, ?_, hcaught⟩
  have hle := hshort _ hser
  simp only [incrementalSerialize, serialize_eq hcodec henc, hlines, Bool.true_or, if_true,
    Except.ok.injEq] at hser
  subst hser
  rw [List.flatten_singleton, List.length_append, List.length_singleton] at hle
  omega

/-- **JSON documents arrive**, with either receiver, with or without `use_lines`. -/
theorem json_packets_arrive (maxRecvSize : ℕ) (hmax : 0 < maxRecvSize) (hint : ℕ)
    (hlimit : 2 ≤ S.limit) :
    Connection.Arrive
      (StreamDataProducer.generate (generateChunks convertToDtoPacket S.incrementalSerialize))
      (StreamEndpoint.dataReceiver (S.protocol converter) maxRecvSize) .init
      (S.Transmits convertToDtoPacket converter received) received ∧
    Connection.Arrive
      (StreamDataProducer.generate (generateChunks convertToDtoPacket S.incrementalSerialize))
      (StreamEndpoint.bufferedReceiver (S.bufferedProtocol converter)) (.init hint)
      (S.Transmits convertToDtoPacket converter received) received := by
  rcases hlines : S.useLines
  · exact Connection.arrive (handles_closed (JsonParser.within_closed S.limit))
      (S.lossless_documents convertToDtoPacket converter received hcodec hlines)
      (implements converter hlines) hmax (bufferImplements converter hlines) List.length_replicate
      S.limit_pos
  · exact Connection.arrive (handles_closed (fits_closed newline_ne S.limit))
      (S.lossless_lines convertToDtoPacket converter received hcodec hlines hlimit)
      (linesImplements converter hlines) hmax (linesBufferImplements converter hlines)
      List.length_replicate S.limit_pos

end

/-- An object and a string, each on a line. -/
theorem json_packets_arrive_two :
    let S := { JSONSerializer.ofBool with useLines := true }
    let generate := StreamDataProducer.generate (generateChunks .ok S.incrementalSerialize)
    ∃ s, Trans.run (Connection.step generate (StreamEndpoint.dataReceiver (S.protocol none) 64))
        { receiver := { consumer := .init } } (Connection.twoCalls true false 24 6) = some s ∧
      s.receiver.results = [.packet true, .packet false] := by
  intro S generate
  have hobject : S.incrementalSerialize true = .ok [[123, 34, 97, 34, 58, 91, 34, 125, 92, 34, 34,
      44, 91, 116, 114, 117, 101, 44, 45, 49, 93, 93, 125, 10]] := by decide +kernel
  have hstring : S.incrementalSerialize false = .ok [[34, 92, 92, 123, 34, 10]] := by
    decide +kernel
  have hshort : ∀ {packet chunks bytes}, S.incrementalSerialize packet = .ok [bytes] →
      bytes.length < S.limit → S.incrementalSerialize packet = .ok chunks →
        chunks.flatten.length < S.limit := by
    intro packet chunks bytes hbytes hlt hchunks
    cases hbytes.symm.trans hchunks
    rwa [List.flatten_singleton]
  exact (S.json_packets_arrive .ok none id rfl 64 (by decide) 1 (by decide)).1.two _ _
    (by decide +kernel) (StreamDataProducer.generate_eq_ok.2 ⟨_, rfl, hobject⟩)
    (StreamDataProducer.generate_eq_ok.2 ⟨_, rfl, hstring⟩)
    ⟨true, _, rfl, rfl, compactJson_object, rfl, fun _ => hshort hobject (by decide), rfl⟩
    ⟨false, _, rfl, rfl, compactJson_string, rfl, fun _ => hshort hstring (by decide), rfl⟩

end JSONSerializer

end EasyNetwork
