/-
  Encodings of texts: UTF-8, UTF-16 and UTF-32 in both byte orders, with and without a byte order
  mark, and the encodings with one byte for each character.

  A `TextCodec` decodes what it has encoded, but not if zero bytes have been removed at the end
  (`decode_ne`): what the codecs above decode has the length of what they encode.
-/
import EasyNetwork.Lib.MapM
import EasyNetwork.Lib.Utf8
import Mathlib.Data.Char

/-- An encoding; `encode` is `none` if the text has another character, and `decode` if the bytes are
    malformed. -/
structure TextCodec where
  encode : String → Option (List UInt8)
  decode : List UInt8 → Option String
  decode_encode : ∀ s b, encode s = some b → decode b = some s
  decode_ne : ∀ s b k, encode s = some (b ++ List.replicate (k + 1) 0) → decode b ≠ some s

namespace TextCodec

/-- What is decoded is as long as what is encoded. -/
theorem decode_ne_of_length {encode : String → Option (List UInt8)}
    {decode : List UInt8 → Option String}
    (h : ∀ s b b', encode s = some b → decode b' = some s → b'.length = b.length) (s : String)
    (b : List UInt8) (k : ℕ) (hencode : encode s = some (b ++ List.replicate (k + 1) 0)) :
    decode b ≠ some s := by
  intro hdecode
  have hlength := h s _ b hencode hdecode
  rw [List.length_append, List.length_replicate] at hlength
  omega

/-- UTF-8. -/
def utf8 : TextCodec where
  encode s := some (Utf8.encode s)
  decode := Utf8.decode
  decode_encode s b h := by
    cases h
    exact Utf8.decode_encode s
  decode_ne := by
    apply decode_ne_of_length
    intro s b b' hencode hdecode
    cases hencode
    rw [Utf8.encode_of_decode hdecode]

/-! ## Units of two bytes -/

inductive ByteOrder where
  | little
  | big
  deriving DecidableEq, Repr

namespace ByteOrder

def bytes : ByteOrder → ℕ → List UInt8
  | .little, n => [UInt8.ofNat (n % 256), UInt8.ofNat (n / 256)]
  | .big, n => [UInt8.ofNat (n / 256), UInt8.ofNat (n % 256)]

def value : ByteOrder → UInt8 → UInt8 → ℕ
  | .little, a, b => a.toNat + 256 * b.toNat
  | .big, a, b => b.toNat + 256 * a.toNat

/-- The units of some bytes. -/
def units (order : ByteOrder) : List UInt8 → Option (List ℕ)
  | [] => some []
  | [_] => none
  | a :: b :: bs => (order.units bs).map (order.value a b :: ·)

theorem value_lt (order : ByteOrder) (a b : UInt8) : order.value a b < 65536 := by
  have ha := a.toNat_lt
  have hb := b.toNat_lt
  cases order <;> simp only [value] <;> omega

theorem length_bytes (order : ByteOrder) (ns : List ℕ) :
    (ns.flatMap order.bytes).length = 2 * ns.length := by
  induction ns with
  | nil => rfl
  | cons n ns ih =>
    have hn : (order.bytes n).length = 2 := by cases order <;> rfl
    rw [List.flatMap_cons, List.length_append, ih, hn, List.length_cons]
    omega

theorem units_bytes (order : ByteOrder) {ns : List ℕ} (h : ∀ n ∈ ns, n < 65536) :
    order.units (ns.flatMap order.bytes) = some ns := by
  induction ns with
  | nil => rfl
  | cons n ns ih =>
    have hn := h n List.mem_cons_self
    have hrest := ih fun m hm => h m (List.mem_cons_of_mem n hm)
    have hvalue : n % 256 % 256 + 256 * (n / 256 % 256) = n := by omega
    cases order <;>
      simp only [List.flatMap_cons, bytes, List.cons_append, List.nil_append, units, hrest,
        Option.map_some, value, UInt8.toNat_ofNat', hvalue]

theorem units_spec {order : ByteOrder} {b : List UInt8} {ns : List ℕ}
    (h : order.units b = some ns) : b.length = 2 * ns.length ∧ ∀ n ∈ ns, n < 65536 := by
  induction b using units.induct generalizing ns with
  | case1 =>
    cases h
    exact ⟨rfl, nofun⟩
  | case2 a => cases h
  | case3 a b bs ih =>
    rw [units] at h
    obtain ⟨ns', hns', rfl⟩ := Option.map_eq_some_iff.1 h
    obtain ⟨hlength, hlt⟩ := ih hns'
    refine ⟨by simp only [List.length_cons, hlength]; omega, ?_⟩
    rintro n (_ | ⟨_, hn⟩)
    · exact value_lt order a b
    · exact hlt n hn

end ByteOrder

/-- An encoding as units of two bytes, `size` of them for a code unit, and its byte order marks. -/
structure UnitCodec where
  size : ℕ
  encode : ByteOrder → List Char → List ℕ
  decode : ByteOrder → List ℕ → Option (List Char)
  lt : ∀ order cs, ∀ n ∈ encode order cs, n < 65536
  decode_encode : ∀ order cs, decode order (encode order cs) = some cs
  length_eq : ∀ order ns cs, (∀ n ∈ ns, n < 65536) → decode order ns = some cs →
    ns.length = (encode order cs).length
  dvd : ∀ order cs, size ∣ (encode order cs).length
  mark : ByteOrder → List UInt8
  length_mark : ∀ order, (mark order).length = 2 * size
  mark_ne : mark .little ≠ mark .big
  mark_ne_zero : ∀ order, ∃ x ∈ mark order, x ≠ 0

namespace UnitCodec
variable (c : UnitCodec)

def encodeBytes (order : ByteOrder) (s : String) : List UInt8 :=
  (c.encode order s.toList).flatMap order.bytes

def decodeBytes (order : ByteOrder) (b : List UInt8) : Option String :=
  (order.units b).bind fun ns => (c.decode order ns).map String.ofList

/-- A mark gives the order of the rest; without one it is the native order. -/
def decodeMarked (native : ByteOrder) (b : List UInt8) : Option String :=
  if b.take (2 * c.size) = c.mark .little then c.decodeBytes .little (b.drop (2 * c.size))
  else if b.take (2 * c.size) = c.mark .big then c.decodeBytes .big (b.drop (2 * c.size))
  else c.decodeBytes native b

variable {c} {order native : ByteOrder} {s : String} {b rest : List UInt8}

theorem decodeBytes_encodeBytes (order : ByteOrder) (s : String) :
    c.decodeBytes order (c.encodeBytes order s) = some s := by
  rw [decodeBytes, encodeBytes, order.units_bytes (c.lt order s.toList), Option.bind_some,
    c.decode_encode, Option.map_some, String.ofList_toList]

theorem length_of_decodeBytes (h : c.decodeBytes order b = some s) :
    b.length = (c.encodeBytes order s).length := by
  obtain ⟨ns, hns, hmap⟩ := Option.bind_eq_some_iff.1 h
  obtain ⟨cs, hcs, rfl⟩ := Option.map_eq_some_iff.1 hmap
  obtain ⟨hlength, hlt⟩ := ByteOrder.units_spec hns
  rw [encodeBytes, ByteOrder.length_bytes, hlength, String.toList_ofList,
    c.length_eq order ns cs hlt hcs]

theorem dvd_length (order : ByteOrder) (s : String) :
    2 * c.size ∣ (c.encodeBytes order s).length := by
  rw [encodeBytes, ByteOrder.length_bytes]
  exact Nat.mul_dvd_mul_left 2 (c.dvd order s.toList)

/-- Bytes that start with a mark. -/
theorem decodeMarked_mark (native order : ByteOrder) (b : List UInt8) :
    c.decodeMarked native (c.mark order ++ b) = c.decodeBytes order b := by
  have htake : (c.mark order ++ b).take (2 * c.size) = c.mark order := by
    rw [← c.length_mark order, List.take_left]
  have hdrop : (c.mark order ++ b).drop (2 * c.size) = b := by
    rw [← c.length_mark order, List.drop_left]
  rw [decodeMarked, htake, hdrop]
  cases order with
  | little => rw [if_pos rfl]
  | big => rw [if_neg c.mark_ne.symm, if_pos rfl]

/-- In one order, without a mark. -/
def ordered (c : UnitCodec) (order : ByteOrder) : TextCodec where
  encode s := some (c.encodeBytes order s)
  decode := c.decodeBytes order
  decode_encode s b h := by
    cases h
    exact decodeBytes_encodeBytes order s
  decode_ne := by
    apply decode_ne_of_length
    intro s b b' hencode hdecode
    cases hencode
    exact length_of_decodeBytes hdecode

/-- With a mark, in native order. -/
def marked (c : UnitCodec) (native : ByteOrder) : TextCodec where
  encode s := some (c.mark native ++ c.encodeBytes native s)
  decode := c.decodeMarked native
  decode_encode s b h := by
    cases h
    rw [decodeMarked_mark]
    exact decodeBytes_encodeBytes native s
  decode_ne s b k hencode hdecode := by
    have hsplit : c.mark native ++ c.encodeBytes native s = b ++ List.replicate (k + 1) 0 :=
      Option.some.inj hencode
    rcases List.append_eq_append_iff.1 hsplit with ⟨rest, rfl, hrest⟩ | ⟨zeros, hmark, hzeros⟩
    · -- the mark is left
      rw [decodeMarked_mark] at hdecode
      have hlength := congrArg List.length hrest
      rw [← length_of_decodeBytes hdecode, List.length_append, List.length_replicate] at hlength
      omega
    · -- a part of the mark is removed; what is left has no mark, and has to be empty
      have hzero : ∀ x ∈ zeros, x = 0 := fun x hx =>
        List.eq_of_mem_replicate (hzeros ▸ List.mem_append_left _ hx)
      have hlength := congrArg List.length hmark
      rw [c.length_mark, List.length_append] at hlength
      rcases Nat.eq_zero_or_pos zeros.length with hnil | hpos
      · rw [List.length_eq_zero_iff.1 hnil, List.append_nil] at hmark
        rw [List.length_eq_zero_iff.1 hnil, List.nil_append] at hzeros
        have hdecode' : c.decodeBytes native [] = some s := by
          rwa [← decodeMarked_mark native native, List.append_nil, hmark]
        have hencoded := length_of_decodeBytes hdecode'
        rw [← hzeros, List.length_replicate] at hencoded
        cases hencoded
      · have hshort : b.take (2 * c.size) = b := List.take_of_length_le (by omega)
        have hne : ∀ order, b ≠ c.mark order := by
          rintro order rfl
          rw [c.length_mark] at hlength
          omega
        rw [decodeMarked, hshort, if_neg (hne _), if_neg (hne _)] at hdecode
        have hdvd := c.dvd_length native s
        rw [← length_of_decodeBytes hdecode] at hdvd
        have hb : b = [] := List.length_eq_zero_iff.1 (Nat.eq_zero_of_dvd_of_lt hdvd (by omega))
        rw [hb, List.nil_append] at hmark
        obtain ⟨x, hx, hx0⟩ := c.mark_ne_zero native
        exact hx0 (hzero x (hmark ▸ hx))

end UnitCodec

/-! ## UTF-16 -/

/-- The units of a character. -/
def charUnits (c : Char) : List ℕ :=
  if c.toNat < 65536 then [c.toNat]
  else [55296 + (c.toNat - 65536) / 1024, 56320 + (c.toNat - 65536) % 1024]

/-- The characters of some units; a unit from U+D800 on needs one from U+DC00 on behind it. -/
def unitsChars : List ℕ → Option (List Char)
  | [] => some []
  | u :: us =>
    if 55296 ≤ u ∧ u < 56320 then
      match us with
      | [] => none
      | v :: us =>
        if 56320 ≤ v ∧ v < 57344 then
          (unitsChars us).map (Char.ofNat (65536 + (u - 55296) * 1024 + (v - 56320)) :: ·)
        else none
    else if 56320 ≤ u ∧ u < 57344 then none
    else (unitsChars us).map (Char.ofNat u :: ·)

theorem char_lt (c : Char) : c.toNat < 55296 ∨ 57343 < c.toNat ∧ c.toNat < 1114112 := by
  have := c.valid
  exact this

theorem charUnits_lt (c : Char) : ∀ n ∈ charUnits c, n < 65536 := by
  have hc := char_lt c
  intro n hn
  rw [charUnits] at hn
  split_ifs at hn with h
  · rw [List.mem_singleton.1 hn]
    exact h
  · simp only [List.mem_cons, List.not_mem_nil, or_false] at hn
    omega

theorem toNat_ofNat {n : ℕ} (h : n < 55296 ∨ 57343 < n ∧ n < 1114112) :
    (Char.ofNat n).toNat = n := by
  rw [Char.ofNat, dif_pos (show n.isValidChar from h)]
  rfl

/-- A character of one unit. -/
theorem unitsChars_one {u : ℕ} (us : List ℕ) (h : ¬ (55296 ≤ u ∧ u < 57344)) :
    unitsChars (u :: us) = (unitsChars us).map (Char.ofNat u :: ·) := by
  conv_lhs => unfold unitsChars
  rw [if_neg (by omega), if_neg (by omega)]

/-- A character of two units. -/
theorem unitsChars_two {u v : ℕ} (us : List ℕ) (hu : 55296 ≤ u ∧ u < 56320)
    (hv : 56320 ≤ v ∧ v < 57344) : unitsChars (u :: v :: us) =
      (unitsChars us).map (Char.ofNat (65536 + (u - 55296) * 1024 + (v - 56320)) :: ·) := by
  conv_lhs => unfold unitsChars
  rw [if_pos hu]
  exact if_pos hv

theorem unitsChars_charUnits (c : Char) (us : List ℕ) :
    unitsChars (charUnits c ++ us) = (unitsChars us).map (c :: ·) := by
  have hc := char_lt c
  rw [charUnits]
  split_ifs with h
  · rw [List.singleton_append, unitsChars_one us (by omega), Char.ofNat_toNat]
  · have hvalue : 65536 + (55296 + (c.toNat - 65536) / 1024 - 55296) * 1024 +
        (56320 + (c.toNat - 65536) % 1024 - 56320) = c.toNat := by omega
    rw [List.cons_append, List.singleton_append, unitsChars_two us (by omega) (by omega), hvalue,
      Char.ofNat_toNat]

theorem unitsChars_flatMap (cs : List Char) : unitsChars (cs.flatMap charUnits) = some cs := by
  induction cs with
  | nil => rfl
  | cons c cs ih => rw [List.flatMap_cons, unitsChars_charUnits, ih, Option.map_some]

/-- The first character of what is decoded, and the units behind it. -/
theorem unitsChars_cons {us : List ℕ} {cs : List Char} (hlt : ∀ n ∈ us, n < 65536)
    (h : unitsChars us = some cs) :
    us = [] ∧ cs = [] ∨ ∃ c us' cs', us = charUnits c ++ us' ∧ cs = c :: cs' ∧
      unitsChars us' = some cs' := by
  cases us with
  | nil =>
    cases h
    exact .inl ⟨rfl, rfl⟩
  | cons u us =>
    right
    have hu := hlt u List.mem_cons_self
    by_cases hhigh : 55296 ≤ u ∧ u < 56320
    · unfold unitsChars at h
      rw [if_pos hhigh] at h
      cases us with
      | nil => cases h
      | cons v us =>
        dsimp only at h
        split_ifs at h with hlow
        obtain ⟨cs', hcs', rfl⟩ := Option.map_eq_some_iff.1 h
        refine ⟨_, us, cs', ?_, rfl, hcs'⟩
        have hnat : (Char.ofNat (65536 + (u - 55296) * 1024 + (v - 56320))).toNat =
            65536 + (u - 55296) * 1024 + (v - 56320) := toNat_ofNat (by omega)
        have hu' : 55296 + (65536 + (u - 55296) * 1024 + (v - 56320) - 65536) / 1024 = u := by omega
        have hv' : 56320 + (65536 + (u - 55296) * 1024 + (v - 56320) - 65536) % 1024 = v := by omega
        rw [charUnits, hnat, if_neg (by omega), hu', hv']
        rfl
    · by_cases hlow : 56320 ≤ u ∧ u < 57344
      · unfold unitsChars at h
        rw [if_neg hhigh, if_pos hlow] at h
        cases h
      · rw [unitsChars_one us (by omega)] at h
        obtain ⟨cs', hcs', rfl⟩ := Option.map_eq_some_iff.1 h
        refine ⟨_, us, cs', ?_, rfl, hcs'⟩
        rw [charUnits, toNat_ofNat (by omega), if_pos hu]
        rfl

/-- Only what has been encoded is decoded. -/
theorem flatMap_charUnits {us : List ℕ} {cs : List Char} (hlt : ∀ n ∈ us, n < 65536)
    (h : unitsChars us = some cs) : cs.flatMap charUnits = us := by
  induction cs generalizing us with
  | nil =>
    rcases unitsChars_cons hlt h with ⟨rfl, -⟩ | ⟨c, us', cs', -, hcs, -⟩
    · rfl
    · cases hcs
  | cons c cs ih =>
    rcases unitsChars_cons hlt h with ⟨-, hcs⟩ | ⟨c', us', cs', rfl, hcs, hrest⟩
    · cases hcs
    · cases hcs
      rw [List.flatMap_cons, ih (fun n hn => hlt n (List.mem_append_right _ hn)) hrest]

/-- UTF-16. -/
def utf16 : UnitCodec where
  size := 1
  encode _ cs := cs.flatMap charUnits
  decode _ := unitsChars
  lt _ cs n hn := by
    obtain ⟨c, -, hc⟩ := List.mem_flatMap.1 hn
    exact charUnits_lt c n hc
  decode_encode _ := unitsChars_flatMap
  length_eq _ ns cs hlt h := congrArg List.length (flatMap_charUnits hlt h).symm
  dvd _ cs := ⟨_, (Nat.one_mul (cs.flatMap charUnits).length).symm⟩
  mark
    | .little => [255, 254]
    | .big => [254, 255]
  length_mark order := by cases order <;> rfl
  mark_ne := by decide
  mark_ne_zero order := by
    cases order
    · exact ⟨255, List.mem_cons_self, by decide⟩
    · exact ⟨254, List.mem_cons_self, by decide⟩

/-! ## UTF-32 -/

/-- The halves of a code point. -/
def ByteOrder.halves : ByteOrder → ℕ → List ℕ
  | .little, n => [n % 65536, n / 65536]
  | .big, n => [n / 65536, n % 65536]

def ByteOrder.joined : ByteOrder → ℕ → ℕ → ℕ
  | .little, u, v => u + 65536 * v
  | .big, u, v => v + 65536 * u

/-- The characters of the code points. -/
def halvesChars (order : ByteOrder) : List ℕ → Option (List Char)
  | [] => some []
  | [_] => none
  | u :: v :: us =>
    if (order.joined u v).isValidChar then
      (halvesChars order us).map (Char.ofNat (order.joined u v) :: ·)
    else none

theorem halvesChars_flatMap (order : ByteOrder) (cs : List Char) :
    halvesChars order (cs.flatMap fun c => order.halves c.toNat) = some cs := by
  induction cs with
  | nil => rfl
  | cons c cs ih =>
    have hvalue : ∀ n, n % 65536 + 65536 * (n / 65536) = n := fun n => Nat.mod_add_div n 65536
    have hvalid : c.toNat.isValidChar := c.valid
    cases order <;>
      simp only [List.flatMap_cons, ByteOrder.halves, List.cons_append, List.nil_append, halvesChars,
        ByteOrder.joined, hvalue, hvalid, if_true] <;>
      simp only [ByteOrder.halves] at ih <;>
      rw [ih, Option.map_some, Char.ofNat_toNat]

theorem length_halves (order : ByteOrder) (cs : List Char) :
    (cs.flatMap fun c => order.halves c.toNat).length = 2 * cs.length := by
  induction cs with
  | nil => rfl
  | cons c cs ih =>
    have hc : (order.halves c.toNat).length = 2 := by cases order <;> rfl
    rw [List.flatMap_cons, List.length_append, ih, hc, List.length_cons]
    omega

theorem length_halvesChars {order : ByteOrder} {us : List ℕ} {cs : List Char}
    (h : halvesChars order us = some cs) : us.length = 2 * cs.length := by
  induction us using halvesChars.induct order generalizing cs with
  | case1 =>
    cases h
    rfl
  | case2 u => cases h
  | case3 u v us hvalid ih =>
    rw [halvesChars, if_pos hvalid] at h
    obtain ⟨cs', hcs', rfl⟩ := Option.map_eq_some_iff.1 h
    simp only [List.length_cons, ih hcs']
    omega
  | case4 u v us hvalid =>
    rw [halvesChars, if_neg hvalid] at h
    cases h

/-- UTF-32. -/
def utf32 : UnitCodec where
  size := 2
  encode order cs := cs.flatMap fun c => order.halves c.toNat
  decode := halvesChars
  lt order cs n hn := by
    obtain ⟨c, -, hc⟩ := List.mem_flatMap.1 hn
    have hlt := char_lt c
    cases order <;>
      simp only [ByteOrder.halves, List.mem_cons, List.not_mem_nil, or_false] at hc <;> omega
  decode_encode := halvesChars_flatMap
  length_eq order ns cs _ h := by rw [length_halvesChars h, length_halves]
  dvd order cs := ⟨cs.length, length_halves order cs⟩
  mark
    | .little => [255, 254, 0, 0]
    | .big => [0, 0, 254, 255]
  length_mark order := by cases order <;> rfl
  mark_ne := by decide
  mark_ne_zero order := by
    cases order
    · exact ⟨255, List.mem_cons_self, by decide⟩
    · exact ⟨254, by decide, by decide⟩

/-! ## One byte for a character -/

/-- The table of an encoding. -/
structure Charmap where
  encode : Char → Option UInt8
  decode : UInt8 → Option Char
  decode_encode : ∀ c b, encode c = some b → decode b = some c

def charmap (table : Charmap) : TextCodec where
  encode s := s.toList.mapM table.encode
  decode b := (b.mapM table.decode).map String.ofList
  decode_encode s b h := by
    have hback := (MapM.eq_some.1 h).flip.imp fun b c hc => table.decode_encode c b hc
    rw [MapM.eq_some.2 hback, Option.map_some, String.ofList_toList]
  decode_ne := by
    apply decode_ne_of_length
    intro s b b' hencode hdecode
    obtain ⟨cs, hcs, rfl⟩ := Option.map_eq_some_iff.1 hdecode
    rw [String.toList_ofList] at hencode
    rw [(MapM.eq_some.1 hcs).length_eq, (MapM.eq_some.1 hencode).length_eq]

end TextCodec
