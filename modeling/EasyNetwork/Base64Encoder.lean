/-
  `Base64EncoderSerializer` (`serializers/wrapper/base64.py`) on a stream.

  The packets of another serializer as base64 tokens, with a checksum or not, separated by a byte
  sequence.  The token is stripped of its trailing separators before it is sent, although a
  separator may be made of characters of the token: `token_decoded_iff` says for which tokens the
  stream gives back what was sent.
-/
import EasyNetwork.Lib.Base64
import EasyNetwork.Separated

namespace EasyNetwork

open Coroutine Search Base64

/-- `AbstractPacketSerializer`. -/
structure AbstractPacketSerializer (P ι : Type) where
  /-- it may raise any exception -/
  serialize : P → Except String Bytes
  deserialize : Bytes → Except (DeserializeError ι) P

/-- `hashlib.sha256(data).digest()` and `hmac.digest(key, data, "sha256")`. -/
structure Digests where
  sha256 : Bytes → Bytes
  hmacSha256 : Bytes → Bytes → Bytes
  sha256_length : ∀ data, (sha256 data).length = 32
  hmacSha256_length : ∀ key data, (hmacSha256 key data).length = 32

/-! ## The functions of `base64` -/

/-- `-_` are `+/` in a URL-safe token. -/
def urlsafeDecodeTranslation (c : UInt8) : UInt8 :=
  if c = 45 then 43 else if c = 95 then 47 else c

def urlsafeEncodeTranslation (c : UInt8) : UInt8 :=
  if c = 43 then 45 else if c = 47 then 95 else c

def standardB64encode (s : Bytes) : Bytes := standard.encode s

def standardB64decode (s : Bytes) : Except Base64.Error Bytes := standard.decode s

def urlsafeB64encode (s : Bytes) : Bytes := (standardB64encode s).map urlsafeEncodeTranslation

def urlsafeB64decode (s : Bytes) : Except Base64.Error Bytes :=
  standardB64decode (s.map urlsafeDecodeTranslation)

/-- `alphabet`. -/
inductive Base64Alphabet where
  | standard
  | urlsafe
  deriving DecidableEq, Repr

namespace Base64Alphabet

/-- `self.__encode`. -/
def encode : Base64Alphabet → Bytes → Bytes
  | standard => standardB64encode
  | urlsafe => urlsafeB64encode

/-- `self.__decode`. -/
def decode : Base64Alphabet → Bytes → Except Base64.Error Bytes
  | standard => standardB64decode
  | urlsafe => urlsafeB64decode

/-- The bytes that a token may contain. -/
def IsTokenByte : Base64Alphabet → UInt8 → Prop
  | standard, c => Base64.standard.IsTokenByte c
  | urlsafe, c => ∃ d, Base64.standard.IsTokenByte d ∧ c = urlsafeEncodeTranslation d

end Base64Alphabet

/-- `bytes.isspace`. -/
def isspace (s : Bytes) : Bool := !s.isEmpty && s.all fun c => [32, 9, 10, 11, 12, 13].contains c

/-! ## The serializer -/

/-- `checksum`. -/
inductive ChecksumArgument where
  | false
  | true
  | str (key : String)
  | bytes (key : Bytes)
  deriving DecidableEq, Repr

/-- The signing key that is encoded in `key`. -/
def signingKey (key : Bytes) : Except String Bytes :=
  match urlsafeB64decode key with
  | .error _ => .error "signing key must be 32 url-safe base64-encoded bytes."
  | .ok key =>
    if key.length ≠ 32 then .error "signing key must be 32 url-safe base64-encoded bytes."
    else .ok key

/-- The bytes of the argument of `urlsafe_b64decode`. -/
def bytesFromDecodeData (s : String) : Except String Bytes :=
  if s.toList.all fun c => c.toNat < 128 then .ok (s.toList.map fun c => UInt8.ofNat c.toNat)
  else .error "string argument should contain only ASCII characters"

/-- A function with digests of 32 bytes. -/
def Checksum : Type := { f : Bytes → Bytes // ∀ data, (f data).length = 32 }

/-- The `self.__checksum` of an argument of the constructor. -/
def ChecksumArgument.checksum (D : Digests) : ChecksumArgument → Except String (Option Checksum)
  | .false => .ok none
  | .true => .ok (some ⟨D.sha256, D.sha256_length⟩)
  | .str key => do
    let key ← bytesFromDecodeData key
    let key ← signingKey key
    return some ⟨D.hmacSha256 key, D.hmacSha256_length key⟩
  | .bytes key => do
    let key ← signingKey key
    return some ⟨D.hmacSha256 key, D.hmacSha256_length key⟩

/-- `Base64EncoderSerializer`, with the checks of its constructor. -/
structure Base64EncoderSerializer (P ι : Type) where
  serializer : AbstractPacketSerializer P ι
  alphabet : Base64Alphabet
  checksum : Option Checksum
  separator : Bytes
  limit : ℕ
  separator_ne : separator ≠ []
  limit_pos : 0 < limit

namespace Base64EncoderSerializer
variable {P ι : Type}

/-- `Base64EncoderSerializer(serializer, alphabet=…, checksum=…, separator=…, limit=…)`. -/
def init (D : Digests) (serializer : AbstractPacketSerializer P ι) (alphabet : Base64Alphabet)
    (checksum : ChecksumArgument) (separator : Bytes) (limit : ℤ) :
    Except String (Base64EncoderSerializer P ι) :=
  if hs : separator = [] then .error "Empty separator"
  else if hl : limit ≤ 0 then .error "limit must be a positive integer"
  else
    match checksum.checksum D with
    | .error exc => .error exc
    | .ok checksum =>
      .ok ⟨serializer, alphabet, checksum, separator, limit.toNat, hs, by omega⟩

/-- `generate_key`; `random` are 32 random bytes. -/
def generateKey (random : Bytes) : Bytes := urlsafeB64encode random

variable (S : Base64EncoderSerializer P ι)

/-- The token of the data of a packet. -/
def token (data : Bytes) : Bytes :=
  match S.checksum with
  | none => S.alphabet.encode data
  | some checksum => S.alphabet.encode (data ++ checksum.1 data)

/-- `serialize`. -/
def serialize (packet : P) : Except String Bytes :=
  match S.serializer.serialize packet with
  | .error exc => .error exc
  | .ok data => .ok (S.token data)

/-- `deserialize`. -/
def deserialize (data : Bytes) : Except (DeserializeError ι) P :=
  match S.alphabet.decode data with
  | .error _ => .error ⟨"Invalid token", none⟩
  | .ok data =>
    match S.checksum with
    | none => S.serializer.deserialize data
    | some checksum =>
      let digest := data.drop (data.length - 32)
      let data := data.take (data.length - 32)
      if checksum.1 data = digest then S.serializer.deserialize data
      else .error ⟨"Invalid token", none⟩

/-- The serializer as a subclass of `AutoSeparatedPacketSerializer`. -/
def autoSeparated : AutoSeparatedPacketSerializer P ι where
  separator := S.separator
  limit := S.limit
  incrementalSerializeCheckSeparator := !isspace S.separator
  serialize := S.serialize
  deserialize := S.deserialize
  separator_ne := S.separator_ne
  limit_pos := S.limit_pos

end Base64EncoderSerializer

/-! ## Tokens -/

theorem urlsafeDecode_encode {c : UInt8} (h : standard.IsTokenByte c) :
    urlsafeDecodeTranslation (urlsafeEncodeTranslation c) = c := by
  rcases h with rfl | ⟨n, hn, rfl⟩
  · rfl
  · have h64 : ∀ n : Fin 64, urlsafeDecodeTranslation (urlsafeEncodeTranslation
        (standardChar n)) = standardChar n := by decide
    exact h64 ⟨n, hn⟩

namespace Base64Alphabet

theorem decode_encode (alphabet : Base64Alphabet) (data : Bytes) :
    alphabet.decode (alphabet.encode data) = .ok data := by
  cases alphabet with
  | standard => exact Alphabet.decode_encode data
  | urlsafe =>
    have hmap : ((standardB64encode data).map urlsafeEncodeTranslation).map
        urlsafeDecodeTranslation = standardB64encode data := by
      rw [List.map_map]
      refine (List.map_congr_left fun c hc => ?_).trans (List.map_id _)
      exact urlsafeDecode_encode (Alphabet.mem_encode hc)
    simp only [decode, encode, urlsafeB64decode, urlsafeB64encode, hmap]
    exact Alphabet.decode_encode data

theorem mem_encode {alphabet : Base64Alphabet} {data : Bytes} {c : UInt8}
    (h : c ∈ alphabet.encode data) : alphabet.IsTokenByte c := by
  cases alphabet with
  | standard => exact Alphabet.mem_encode h
  | urlsafe =>
    obtain ⟨d, hd, rfl⟩ := List.mem_map.1 h
    exact ⟨d, Alphabet.mem_encode hd, rfl⟩

/-- A white space is not in a token. -/
theorem not_isTokenByte_of_isspace {alphabet : Base64Alphabet} {c : UInt8}
    (h : c ∈ ([32, 9, 10, 11, 12, 13] : Bytes)) : ¬ alphabet.IsTokenByte c := by
  have hstd : ¬ Base64.standard.IsTokenByte c := by
    rintro (rfl | ⟨n, hn, rfl⟩)
    · revert h; decide
    · have h64 : ∀ n : Fin 64, standardChar n ∉ ([32, 9, 10, 11, 12, 13] : Bytes) := by decide
      exact h64 ⟨n, hn⟩ h
  cases alphabet with
  | standard => exact hstd
  | urlsafe =>
    rintro ⟨d, hd, rfl⟩
    rw [urlsafeEncodeTranslation] at h hstd
    split_ifs at h hstd with h1 h2
    · revert h; decide
    · revert h; decide
    · exact hstd hd

end Base64Alphabet

/-- A separator with a byte that the data does not contain is not found in the data, nor does the
    data end with the beginning of a period of it. -/
theorem AutoSeparatedPacketSerializer.not_endsInPeriod_of_notMem {separator data : Bytes}
    {c : UInt8} (hc : c ∈ separator) (hd : c ∉ data) : ¬ EndsInPeriod separator data := by
  rintro ⟨m, hm0, hm, hper, hsuf⟩
  -- every byte of the separator is one of its first `m`
  obtain ⟨i, hi, rfl⟩ := List.getElem_of_mem hc
  have hmod : i % m < separator.length := (Nat.mod_lt i hm0).trans hm
  have heq : separator[i] = separator[i % m] := by
    have := List.HasPeriod.getElem?_mod m i separator hper hi
    rw [List.getElem?_eq_getElem hi, List.getElem?_eq_getElem hmod, Option.some.injEq] at this
    exact this.symm
  have hmem : separator[i % m] ∈ separator.take m :=
    List.mem_take_iff_getElem.2 ⟨i % m, by have := Nat.mod_lt i hm0; omega, rfl⟩
  exact hd (heq ▸ hsuf.subset hmem)

/-! ## Tokens on a stream -/

namespace Base64EncoderSerializer
variable {P ι : Type} {S : Base64EncoderSerializer P ι}

/-- A generated key signs the packets with the bytes that it encodes. -/
theorem checksum_generateKey (D : Digests) {random : Bytes} (hr : random.length = 32) :
    (ChecksumArgument.bytes (generateKey random)).checksum D =
      .ok (some ⟨D.hmacSha256 random, D.hmacSha256_length random⟩) := by
  have hdec : urlsafeB64decode (urlsafeB64encode random) = .ok random :=
    Base64Alphabet.decode_encode .urlsafe random
  have hkey : signingKey (generateKey random) = .ok random := by
    simp only [signingKey, generateKey, hdec, hr, ne_eq, not_true_eq_false, if_false]
  simp only [ChecksumArgument.checksum, hkey]
  rfl

/-- **What is decoded from the token of the data is the data.** -/
theorem deserialize_token (S : Base64EncoderSerializer P ι) (data : Bytes) :
    S.deserialize (S.token data) = S.serializer.deserialize data := by
  unfold deserialize token
  cases hc : S.checksum with
  | none => simp only [Base64Alphabet.decode_encode]
  | some checksum =>
    have hlen : (data ++ checksum.1 data).length - 32 = data.length := by
      rw [List.length_append, checksum.2, Nat.add_sub_cancel]
    simp only [Base64Alphabet.decode_encode, hlen, List.take_left, List.drop_left, if_true]

theorem mem_token {data : Bytes} {c : UInt8} (h : c ∈ S.token data) :
    S.alphabet.IsTokenByte c := by
  unfold token at h
  cases hc : S.checksum with
  | none => rw [hc] at h; exact Base64Alphabet.mem_encode h
  | some checksum => rw [hc] at h; exact Base64Alphabet.mem_encode h

theorem autoSeparated_serialize {p : P} {data : Bytes}
    (hser : S.serializer.serialize p = .ok data) :
    S.autoSeparated.serialize p = .ok (S.token data) := by
  simp only [autoSeparated, serialize, hser]

/-- A separator of white spaces is neither removed from the token nor found in it. -/
theorem not_infix_token_of_isspace (h : isspace S.separator = true) (data : Bytes) :
    ¬ S.separator <:+: S.token data := by
  obtain ⟨c, hc⟩ := List.exists_mem_of_ne_nil _ S.separator_ne
  have hspace := List.contains_iff_mem.1 (List.all_eq_true.1 (Bool.and_eq_true_iff.1 h).2 c hc)
  exact fun hin => Base64Alphabet.not_isTokenByte_of_isspace hspace (mem_token (hin.subset hc))

/-- **What is sent** is the token without its trailing separators, and a separator. -/
theorem incrementalSerialize_ok {p : P} {data W : Bytes}
    (hser : S.serializer.serialize p = .ok data)
    (hW : S.autoSeparated.incrementalSerialize p = .ok [W]) :
    W = removeSeparators S.separator (S.token data) ++ S.separator ∧
      ¬ S.separator <:+: removeSeparators S.separator (S.token data) := by
  have htok := autoSeparated_serialize hser
  cases hs : isspace S.separator with
  | false =>
    exact AutoSeparatedPacketSerializer.incrementalSerialize_ok
      (by simp only [autoSeparated, hs, Bool.not_false]) htok hW
  | true =>
    have hnot := not_infix_token_of_isspace hs data
    have hsuf : ¬ S.separator <:+ S.token data := fun h => hnot h.isInfix
    rw [removeSeparators_of_not_suffix hsuf]
    refine ⟨?_, hnot⟩
    rw [AutoSeparatedPacketSerializer.incrementalSerialize, htok] at hW
    simp only [autoSeparated, hs, Bool.not_true, Bool.false_eq_true, if_false, hsuf] at hW
    split_ifs at hW
    · cases hW
    · exact (List.singleton_inj.1 (Except.ok.inj hW)).symm

theorem removeSeparators_isPrefix {sep : Bytes} (hsep : sep ≠ []) (data : Bytes) :
    removeSeparators sep data <+: data := by
  obtain ⟨-, n, hn⟩ := removeSeparators_spec hsep data
  exact ⟨_, hn.symm⟩

/-- **Exactly the tokens that end neither with the separator nor in a period of it come back**:
    `deserialize` is called with the token, and gives what the wrapped serializer makes of the data
    that it serialized. -/
theorem token_decoded_iff (S : Base64EncoderSerializer P ι) {p : P} {data W : Bytes}
    (hser : S.serializer.serialize p = .ok data)
    (hW : S.autoSeparated.incrementalSerialize p = .ok [W]) (hlim : W.length < S.limit)
    (T : Bytes) (chunks : List Bytes) (hcut : chunks.flatten = W ++ T) :
    (S.autoSeparated.DecodesTo W (S.token data) chunks ∧
        S.deserialize (S.token data) = S.serializer.deserialize data) ↔
      ¬ S.separator <:+ S.token data ∧
        ¬ AutoSeparatedPacketSerializer.EndsInPeriod S.separator (S.token data) := by
  obtain ⟨rfl, hnot⟩ := incrementalSerialize_ok hser hW
  constructor
  · rintro ⟨h, -⟩
    obtain ⟨i, hi, hfind, htok⟩ := AutoSeparatedPacketSerializer.DecodesTo.find h
    -- nothing has been removed from the token
    have hpre := removeSeparators_isPrefix S.separator_ne (S.token data)
    have hlen : (S.token data).length ≤ i := by rw [htok]; exact List.length_take_le _ _
    have heq : removeSeparators S.separator (S.token data) = S.token data :=
      hpre.eq_of_length (le_antisymm hpre.length_le (hlen.trans hi))
    have hsuf := (removeSeparators_spec S.separator_ne (S.token data)).1
    rw [heq] at hi hfind hnot hsuf
    refine ⟨hsuf, (AutoSeparatedPacketSerializer.find_append_separator hnot).1 ?_⟩
    rw [le_antisymm hlen hi]; exact hfind
  · rintro ⟨hsuf, hper⟩
    rw [removeSeparators_of_not_suffix hsuf] at hnot hlim hcut ⊢
    have hfind := (AutoSeparatedPacketSerializer.find_append_separator hnot).2 hper
    exact ⟨AutoSeparatedPacketSerializer.decodesTo_of_find (S := S.autoSeparated) hfind hlim hcut,
      deserialize_token S data⟩

/-- A separator with a byte that no token contains, such as a white space, suits every packet. -/
theorem token_suits_of_foreign {c : UInt8} (hc : c ∈ S.separator)
    (hforeign : ¬ S.alphabet.IsTokenByte c) (data : Bytes) :
    ¬ S.separator <:+ S.token data ∧
      ¬ AutoSeparatedPacketSerializer.EndsInPeriod S.separator (S.token data) :=
  have hd : c ∉ S.token data := fun h => hforeign (mem_token h)
  ⟨fun h => hd (h.subset hc), AutoSeparatedPacketSerializer.not_endsInPeriod_of_notMem hc hd⟩

/-- A serializer of byte strings as they are. -/
def rawBytes : AbstractPacketSerializer Bytes Unit := ⟨.ok, .ok⟩

/-- `Base64EncoderSerializer(rawBytes, separator=separator, limit=16)`. -/
def rawEncoder (separator : Bytes) (hs : separator ≠ []) : Base64EncoderSerializer Bytes Unit :=
  ⟨rawBytes, .urlsafe, none, separator, 16, hs, Nat.zero_lt_succ 15⟩

example (D : Digests) : init D rawBytes .urlsafe .false [13, 10] 16 =
    .ok (rawEncoder [13, 10] (by decide)) := rfl

/-- The token `QQ==` of the packet `A`, sent as a line and cut within the line ending. -/
theorem token_decoded_line :
    (rawEncoder [13, 10] (by decide)).autoSeparated.DecodesTo [81, 81, 61, 61, 13, 10]
        [81, 81, 61, 61] [[81, 81], [61, 61, 13], [10]] ∧
      (rawEncoder [13, 10] (by decide)).deserialize [81, 81, 61, 61] = .ok [65] := by
  have h := @token_decoded_iff Bytes Unit (rawEncoder [13, 10] (by decide)) [65] [65]
    [81, 81, 61, 61, 13, 10] rfl rfl (by decide) [] [[81, 81], [61, 61, 13], [10]] rfl
  exact h.2 (token_suits_of_foreign (c := 13) (by decide)
    (Base64Alphabet.not_isTokenByte_of_isspace (by decide)) [65])

/-- With the separator `=`, the token `QQ==` is sent as `QQ=`, and `QQ` is not a token. -/
theorem not_token_decoded_padding :
    (rawEncoder [61] (by decide)).token [65] = [81, 81, 61, 61] ∧
      (rawEncoder [61] (by decide)).autoSeparated.incrementalSerialize [65] = .ok [[81, 81, 61]] ∧
      (rawEncoder [61] (by decide)).autoSeparated.frame.after [[81, 81, 61]] =
        some (.returned ([81, 81], [])) ∧
      (rawEncoder [61] (by decide)).deserialize [81, 81] = .error ⟨"Invalid token", none⟩ ∧
      ¬ (rawEncoder [61] (by decide)).autoSeparated.DecodesTo [81, 81, 61] [81, 81, 61, 61]
        [[81, 81, 61]] := by
  have hs : removeSeparators [61] [81, 81, 61, 61] = [81, 81] := by
    have h1 := @removeSeparators_append [61] (by decide) [81, 81]
    have h2 := @removeSeparators_append [61] (by decide) [81, 81, 61]
    exact h2.trans (h1.trans (removeSeparators_of_not_suffix (by decide)))
  refine ⟨rfl, ?_, by decide, rfl, ?_⟩
  · have htok : (rawEncoder [61] (by decide)).autoSeparated.serialize [65] =
        .ok [81, 81, 61, 61] := rfl
    rw [AutoSeparatedPacketSerializer.incrementalSerialize, htok]
    simp only [autoSeparated, rawEncoder, hs]; decide
  · rintro ⟨k, hpre, hret, -⟩
    rcases k with _ | k
    · revert hpre; decide
    · rw [List.take_succ_cons, List.take_nil] at hret
      revert hret; decide

end Base64EncoderSerializer

end EasyNetwork
