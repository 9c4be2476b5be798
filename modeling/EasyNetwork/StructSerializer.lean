/-
  `NamedTupleStructSerializer` (`serializers/struct.py`).

  `struct` is given by its formats for one value, besides `s` and `p`: what they pack, they unpack.
  The others are strings of a fixed size, which are filled up with zero bytes, the pad byte `x`, which
  packs no value, and the Pascal string `p`, which has room for no byte but its length.

  `roundTrip_iff`: a packet comes back iff the text of no field is encoded with a zero byte at its
  end, no field has the format `x`, the value of a field with the format `p` is empty, and every string
  field is one of the named tuple.
-/
import EasyNetwork.Exceptions
import EasyNetwork.Lib.TextCodec
import Mathlib.Data.List.DropRight

namespace EasyNetwork

namespace StructSerializer

variable {V : Type}

/-! ## `struct` -/

/-- A value of a named tuple; `V` is the type of what is neither a text nor a byte string of an `s`
    format. -/
inductive Value (V : Type) where
  | str (s : String)
  | bytes (b : Bytes)
  | other (v : V)

/-- A format character of `struct`, but `s`, `p` and `x`. -/
structure CharFormat (V : Type) where
  size : ℕ
  alignment : ℕ
  pack : V → Option Bytes
  unpack : Bytes → V
  length_pack : ∀ v b, pack v = some b → b.length = size
  unpack_pack : ∀ v b, pack v = some b → unpack b = v

/-- A value of a `Struct`. -/
inductive Item (V : Type) where
  | string (size : ℕ)
  /-- `x` -/
  | pad
  /-- `p` -/
  | pascal
  | other (format : CharFormat V)

namespace Item

def size : Item V → ℕ
  | .string size => size
  | .pad | .pascal => 1
  | .other format => format.size

def alignment : Item V → ℕ
  | .string _ | .pad | .pascal => 1
  | .other format => format.alignment

def isString : Item V → Bool
  | .string _ => true
  | .pad | .pascal | .other _ => false

def isPad : Item V → Bool
  | .pad => true
  | .string _ | .pascal | .other _ => false

/-- A string is cut or filled up; `none` is a `struct.error`. -/
def pack : Item V → Value V → Option Bytes
  | .string size, .bytes b => some (b.take size ++ List.replicate (size - b.length) 0)
  | .pascal, .bytes _ => some [0]
  | .other format, .other v => format.pack v
  | _, _ => none

def unpack : Item V → Bytes → Value V
  | .string _, b => .bytes b
  | .pad, _ | .pascal, _ => .bytes []
  | .other format, b => .other (format.unpack b)

end Item

/-- The pad bytes at an offset. -/
def padding (offset alignment : ℕ) : ℕ := (alignment - offset % alignment) % alignment

/-- The size of the items from an offset on. -/
def sizeFrom : ℕ → List (Item V) → ℕ
  | _, [] => 0
  | offset, item :: items =>
    let pad := padding offset item.alignment
    pad + item.size + sizeFrom (offset + pad + item.size) items

def packFrom : ℕ → List (Item V) → List (Value V) → Option Bytes
  | _, [], [] => some []
  | offset, .pad :: items, values => do
    let rest ← packFrom (offset + 1) items values
    return 0 :: rest
  | offset, item :: items, value :: values => do
    let pad := padding offset item.alignment
    let b ← item.pack value
    let rest ← packFrom (offset + pad + item.size) items values
    return List.replicate pad 0 ++ b ++ rest
  | _, _, _ => none

def unpackFrom : ℕ → List (Item V) → Bytes → List (Value V)
  | _, [], _ => []
  | offset, .pad :: items, data => unpackFrom (offset + 1) items (data.drop 1)
  | offset, item :: items, data =>
    let pad := padding offset item.alignment
    item.unpack ((data.drop pad).take item.size) ::
      unpackFrom (offset + pad + item.size) items (data.drop (pad + item.size))

/-- `Struct.pack`. -/
def pack (items : List (Item V)) (values : List (Value V)) : Option Bytes := packFrom 0 items values

/-- `Struct.unpack`. -/
def unpack (items : List (Item V)) (data : Bytes) : Option (List (Value V)) :=
  if data.length = sizeFrom 0 items then some (unpackFrom 0 items data) else none

/-! ## The serializer -/

/-- `_ENDIANNESS_CHARACTERS`. -/
def endiannessCharacters : List Char := ['@', '=', '<', '>', '!']

/-- `str.isdecimal()` and `str.isalpha()` of a character. -/
structure UnicodeData where
  isdecimal : Char → Bool
  isalpha : Char → Bool
  isdecimal_ascii : ∀ c : Char, c.toNat < 128 → isdecimal c = c.isDigit
  isalpha_ascii : ∀ c : Char, c.toNat < 128 → isalpha c = c.isAlpha

/-- What `__init__` accepts as the format of a field. -/
def isFieldFormat (unicode : UnicodeData) (fmt : List Char) : Bool :=
  if fmt.any (· ∈ endiannessCharacters) then false
  else if fmt.getLast? = some 's' then fmt.length ≤ 1 || fmt.dropLast.all unicode.isdecimal
  else match fmt with
    | [c] => unicode.isalpha c
    | _ => false

inductive InitError where
  | valueError (message : String)
  | keyError (field : String)
  | unicodeEncodeError
  | structError
  deriving DecidableEq, Repr

/-- A `dict`. -/
structure FieldFormats where
  entries : List (String × String)
  nodup : (entries.map Prod.fst).Nodup

/-- `NamedTupleStructSerializer`; `fields` are those of the named tuple, and `items` the items of
    the `Struct`. -/
structure NamedTupleStructSerializer (V : Type) where
  fields : List String
  items : List (Item V)
  stringFields : List String
  encoding : Option TextCodec
  stripTrailingNul : Bool

/-- The number before the `s`. -/
def count (digits : List Char) : ℕ :=
  if digits = [] then 1 else digits.foldl (fun n c => 10 * n + (c.toNat - '0'.toNat)) 0

/-- The item that `Struct` reads in a field format that `__init__` accepts. -/
def structItem (formats : Char → Option (CharFormat V)) (fmt : List Char) :
    Except InitError (Item V) :=
  match fmt.getLast? with
  | none => .error .structError
  | some c =>
    if c = 's' then .ok (.string (count fmt.dropLast))
    else if c = 'x' then .ok .pad
    else if c = 'p' then .ok .pascal
    else match formats c with
      | some format => .ok (.other format)
      | none => .error .structError

/-- `Struct(format)`. -/
def structItems (formats : Char → Option (CharFormat V)) (fmts : List (List Char)) :
    Except InitError (List (Item V)) :=
  if fmts.all fun fmt => fmt.all (·.toNat < 128) then fmts.mapM (structItem formats)
  else .error .unicodeEncodeError

/-- The loop over the field formats. -/
def checkFormats (unicode : UnicodeData) : List (String × String) → Except InitError Unit
  | [] => .ok ()
  | (field, fmt) :: entries =>
    if isFieldFormat unicode fmt.toList then checkFormats unicode entries
    else .error (.valueError ("'" ++ field ++ "': Invalid field format"))

/-- `field_formats[field]`. -/
def getFormat (fieldFormats : FieldFormats) (field : String) : Except InitError (List Char) :=
  match fieldFormats.entries.lookup field with
  | none => .error (.keyError field)
  | some fmt => .ok fmt.toList

/-- The endianness of the `Struct`, which is `!` if none is given. -/
def checkEndianness (formatEndianness : String) : Except InitError Char :=
  match formatEndianness.toList with
  | [] => .ok '!'
  | [c] =>
    if c ∈ endiannessCharacters then .ok c
    else .error (.valueError "Invalid endianness character")
  | _ => .error (.valueError "Invalid endianness character")

/-- `FixedSizePacketSerializer.__init__`. -/
def checkSize (size : ℕ) : Except InitError Unit :=
  if size = 0 then .error (.valueError "size must be a positive integer") else .ok ()

/-- `__init__`; `formats` are the format characters that `struct` has for an endianness. -/
def init (unicode : UnicodeData) (formats : Char → Char → Option (CharFormat V))
    (fields : List String) (fieldFormats : FieldFormats) (formatEndianness : String)
    (encoding : Option TextCodec) (stripStringTrailingNulBytes : Bool) :
    Except InitError (NamedTupleStructSerializer V) := do
  let endianness ← checkEndianness formatEndianness
  checkFormats unicode fieldFormats.entries
  let fmts ← fields.mapM (getFormat fieldFormats)
  let items ← structItems (formats endianness) fmts
  checkSize (sizeFrom 0 items)
  return {
    fields
    items
    stringFields := (fieldFormats.entries.filter fun e => e.2.toList.getLast? = some 's').map Prod.fst
    encoding
    stripTrailingNul := stripStringTrailingNulBytes }

/-- What the methods may raise. -/
inductive Error where
  /-- of `getattr()`; of an attribute that is no field, `bytes()` or `_replace()` raises instead -/
  | attributeError (field : String)
  | typeError
  | unicodeEncodeError
  | structError
  /-- `DeserializeError("Invalid value: ...")` -/
  | invalidValue
  /-- `DeserializeError("UnicodeError when building packet from unpacked struct value: ...")` -/
  | unicodeError
  deriving DecidableEq, Repr

/-- `value.rstrip(b"\\0")`. -/
def rstripNul (b : Bytes) : Bytes := b.rdropWhile (· = 0)

namespace NamedTupleStructSerializer
variable (self : NamedTupleStructSerializer V)

/-- `getattr()` of the string fields, and `_replace()` of them. -/
def replaceStrings (f : Value V → Except Error (Value V)) (packet : List (Value V)) :
    Except Error (List (Value V)) :=
  match self.stringFields.find? (· ∉ self.fields) with
  | some field => .error (.attributeError field)
  | none =>
    (self.fields.zip packet).mapM fun (field, value) =>
      if field ∈ self.stringFields then f value else .ok value

/-- `bytes(value, encoding, "strict")`. -/
def encodeValue (encoding : TextCodec) : Value V → Except Error (Value V)
  | .str s =>
    match encoding.encode s with
    | some b => .ok (.bytes b)
    | none => .error .unicodeEncodeError
  | .bytes _ | .other _ => .error .typeError

/-- `iter_values`. -/
def iterValues (packet : List (Value V)) : Except Error (List (Value V)) :=
  match self.encoding with
  | some encoding =>
    if self.stringFields ≠ [] then self.replaceStrings (encodeValue encoding) packet else .ok packet
  | none => .ok packet

/-- The value of a string field of the packet. -/
def decodeValue : Value V → Except Error (Value V)
  | .bytes b =>
    let b := if self.stripTrailingNul then rstripNul b else b
    match self.encoding with
    | some encoding =>
      match encoding.decode b with
      | some s => .ok (.str s)
      | none => .error .unicodeError
    | none => .ok (.bytes b)
  | .str _ | .other _ => .error .typeError

/-- `from_tuple`; `_make()` counts the values. -/
def fromTuple (packetTuple : List (Value V)) : Except Error (List (Value V)) :=
  if packetTuple.length ≠ self.fields.length then .error .typeError
  else if self.stringFields ≠ [] then self.replaceStrings self.decodeValue packetTuple
  else .ok packetTuple

/-- `serialize`. -/
def serialize (packet : List (Value V)) : Except Error Bytes := do
  let values ← self.iterValues packet
  match pack self.items values with
  | some data => return data
  | none => .error .structError

/-- `deserialize`. -/
def deserialize (data : Bytes) : Except Error (List (Value V)) :=
  match unpack self.items data with
  | some packetTuple => self.fromTuple packetTuple
  | none => .error .invalidValue

end NamedTupleStructSerializer

/-! ## The items of the fields -/

theorem forall₂_comp {α β γ : Type} {R : α → β → Prop} {S : β → γ → Prop} {T : α → γ → Prop}
    (hT : ∀ a b c, R a b → S b c → T a c) {as : List α} {bs : List β} {cs : List γ}
    (hR : List.Forall₂ R as bs) (hS : List.Forall₂ S bs cs) : List.Forall₂ T as cs := by
  induction hR generalizing cs with
  | nil =>
    cases hS
    exact .nil
  | cons hab _ ih =>
    cases hS with
    | cons hbc hS => exact .cons (hT _ _ _ hab hbc) (ih hS)

theorem lookup_mem {entries : List (String × String)} {field fmt : String}
    (h : entries.lookup field = some fmt) : (field, fmt) ∈ entries := by
  obtain ⟨before, after, rfl, -⟩ := List.lookup_eq_some_iff.1 h
  exact List.mem_append_right _ List.mem_cons_self

/-- The items of strings are those of the formats that end with `s`. -/
theorem structItem_isString {formats : Char → Option (CharFormat V)} {fmt : List Char}
    {item : Item V} (h : structItem formats fmt = .ok item) :
    item.isString ↔ fmt.getLast? = some 's' := by
  rw [structItem] at h
  split at h
  · cases h
  · next c hlast =>
    rw [hlast, Option.some.injEq]
    split_ifs at h with hs hx hp
    · cases h
      exact ⟨fun _ => hs, fun _ => rfl⟩
    · cases h
      exact ⟨fun h => (by cases h), fun h => absurd h hs⟩
    · cases h
      exact ⟨fun h => (by cases h), fun h => absurd h hs⟩
    · split at h
      · cases h
        exact ⟨fun h => (by cases h), fun h => absurd h hs⟩
      · cases h

theorem getFormat_spec {fieldFormats : FieldFormats} {field : String} {fmt : List Char}
    (h : getFormat fieldFormats field = .ok fmt) :
    ∃ format, (field, format) ∈ fieldFormats.entries ∧ format.toList = fmt := by
  rw [getFormat] at h
  split at h
  · cases h
  · next format hlookup =>
    cases h
    exact ⟨format, lookup_mem hlookup, rfl⟩

/-- A dict has one value for a key. -/
theorem FieldFormats.eq_of_mem (fieldFormats : FieldFormats) {field fmt fmt' : String}
    (h : (field, fmt) ∈ fieldFormats.entries) (h' : (field, fmt') ∈ fieldFormats.entries) :
    fmt = fmt' :=
  congrArg Prod.snd (List.inj_on_of_nodup_map fieldFormats.nodup h h' rfl)

variable {unicode : UnicodeData} {formats : Char → Char → Option (CharFormat V)}
  {fields : List String}
  {fieldFormats : FieldFormats} {formatEndianness : String} {encoding : Option TextCodec}
  {strip : Bool} {ser : NamedTupleStructSerializer V}

theorem init_spec
    (h : init unicode formats fields fieldFormats formatEndianness encoding strip = .ok ser) :
    ser.encoding = encoding ∧ ser.stripTrailingNul = strip ∧
      List.Forall₂ (fun field item => field ∈ ser.stringFields ↔ item.isString) ser.fields
        ser.items := by
  rw [init] at h
  obtain ⟨endianness, -, h⟩ := MapM.bind_eq_ok h
  obtain ⟨-, -, h⟩ := MapM.bind_eq_ok h
  obtain ⟨fmts, hfmts, h⟩ := MapM.bind_eq_ok h
  obtain ⟨items, hitems, h⟩ := MapM.bind_eq_ok h
  obtain ⟨-, -, h⟩ := MapM.bind_eq_ok h
  cases h
  refine ⟨rfl, rfl, ?_⟩
  dsimp only
  rw [structItems] at hitems
  split_ifs at hitems
  rw [MapM.eq_ok] at hfmts hitems
  refine forall₂_comp ?_ hfmts hitems
  intro field fmt item hfmt hitem
  obtain ⟨format, hmem, rfl⟩ := getFormat_spec hfmt
  rw [structItem_isString hitem, List.mem_map]
  constructor
  · rintro ⟨⟨field', format'⟩, he, rfl⟩
    obtain ⟨hmem', hs⟩ := List.mem_filter.1 he
    rw [fieldFormats.eq_of_mem hmem hmem']
    exact of_decide_eq_true hs
  · intro hs
    exact ⟨(field, format), List.mem_filter.2 ⟨hmem, decide_eq_true hs⟩, rfl⟩

/-! ## `pack` and `unpack` -/

/-- The value that comes out of `unpack`. -/
def Item.padded : Item V → Value V → Value V
  | .string size, .bytes b => .bytes (b.take size ++ List.replicate (size - b.length) 0)
  | .pascal, _ => .bytes []
  | _, value => value

theorem Item.unpack_pack {item : Item V} {value : Value V} {b : Bytes}
    (h : item.pack value = some b) : item.unpack b = item.padded value ∧ b.length = item.size := by
  cases item with
  | string size =>
    cases value with
    | bytes b' =>
      cases h
      refine ⟨rfl, ?_⟩
      rw [List.length_append, List.length_take, List.length_replicate, Item.size]
      omega
    | str s => cases h
    | other v => cases h
  | pad => cases value <;> cases h
  | pascal =>
    cases value with
    | bytes b' =>
      cases h
      exact ⟨rfl, rfl⟩
    | str s => cases h
    | other v => cases h
  | other format =>
    cases value with
    | other v =>
      exact ⟨congrArg Value.other (format.unpack_pack v b h), format.length_pack v b h⟩
    | str s => cases h
    | bytes b' => cases h

theorem Item.isPad_of_pack {item : Item V} {value : Value V} {b : Bytes}
    (h : item.pack value = some b) : item.isPad = false := by
  cases item with
  | pad => cases value <;> cases h
  | string size => rfl
  | pascal => rfl
  | other format => rfl

section
variable {item : Item V} (h : item.isPad = false) (items : List (Item V)) (offset : ℕ)
include h

theorem packFrom_cons (value : Value V) (values : List (Value V)) :
    packFrom offset (item :: items) (value :: values) = do
      let b ← item.pack value
      let rest ← packFrom (offset + padding offset item.alignment + item.size) items values
      return List.replicate (padding offset item.alignment) 0 ++ b ++ rest := by
  cases item with
  | pad => cases h
  | string size => rfl
  | pascal => rfl
  | other format => rfl

theorem packFrom_nil : packFrom offset (item :: items) [] = none := by
  cases item with
  | pad => cases h
  | string size => rfl
  | pascal => rfl
  | other format => rfl

theorem unpackFrom_cons (data : Bytes) : unpackFrom offset (item :: items) data =
    item.unpack ((data.drop (padding offset item.alignment)).take item.size) ::
      unpackFrom (offset + padding offset item.alignment + item.size) items
        (data.drop (padding offset item.alignment + item.size)) := by
  cases item with
  | pad => cases h
  | string size => rfl
  | pascal => rfl
  | other format => rfl

end

/-- A pad byte packs no value. -/
theorem length_of_packFrom {items : List (Item V)} {values : List (Value V)} {offset : ℕ}
    {data : Bytes} (h : packFrom offset items values = some data) :
    values.length = items.countP fun item => !item.isPad := by
  induction items generalizing values offset data with
  | nil =>
    cases values with
    | nil => rfl
    | cons value values => cases h
  | cons item items ih =>
    cases hpad : item.isPad with
    | true =>
      cases item with
      | pad =>
        obtain ⟨rest, hrest, -⟩ := Option.bind_eq_some_iff.1 h
        exact ih hrest
      | string size => cases hpad
      | pascal => cases hpad
      | other format => cases hpad
    | false =>
      cases values with
      | nil =>
        rw [packFrom_nil hpad] at h
        cases h
      | cons value values =>
        rw [packFrom_cons hpad] at h
        obtain ⟨b, -, h⟩ := Option.bind_eq_some_iff.1 h
        obtain ⟨rest, hrest, -⟩ := Option.bind_eq_some_iff.1 h
        rw [List.countP_cons_of_pos (by rw [hpad]; rfl), List.length_cons, ih hrest]

theorem unpackFrom_packFrom {items : List (Item V)} {values : List (Value V)}
    (h : List.Forall₂ (fun item value => ∃ b, item.pack value = some b) items values)
    (offset : ℕ) : ∃ data, packFrom offset items values = some data ∧
      data.length = sizeFrom offset items ∧
      unpackFrom offset items data = List.zipWith Item.padded items values := by
  induction h generalizing offset with
  | nil => exact ⟨[], rfl, rfl, rfl⟩
  | @cons item value items values hvalue _ ih =>
    obtain ⟨b, hb⟩ := hvalue
    obtain ⟨hunpack, hlength⟩ := Item.unpack_pack hb
    have hpad' := Item.isPad_of_pack hb
    obtain ⟨rest, hrest, hsize, hvalues⟩ := ih (offset + padding offset item.alignment + item.size)
    refine ⟨List.replicate (padding offset item.alignment) 0 ++ b ++ rest, ?_, ?_, ?_⟩
    · rw [packFrom_cons hpad', hb, Option.bind_eq_bind, Option.bind_some, hrest]
      rfl
    · rw [List.length_append, List.length_append, List.length_replicate, hlength, hsize, sizeFrom]
    · have hpad : (List.replicate (padding offset item.alignment) (0 : UInt8)).length =
          padding offset item.alignment := List.length_replicate
      have htake : ((List.replicate (padding offset item.alignment) 0 ++ b ++ rest).drop
          (padding offset item.alignment)).take item.size = b := by
        rw [List.append_assoc, List.drop_left' hpad, List.take_left' hlength]
      have hdrop : (List.replicate (padding offset item.alignment) 0 ++ b ++ rest).drop
          (padding offset item.alignment + item.size) = rest :=
        List.drop_left' (by rw [List.length_append, hpad, hlength])
      rw [unpackFrom_cons hpad', htake, hdrop, hunpack, hvalues]
      rfl

/-! ## The round trip -/

/-- A value of a packet that fits its field; a pad byte takes any. -/
def Fits (encoding : TextCodec) : Item V → Value V → Prop
  | .string size, .str s =>
    s.toList.getLast? ≠ some (Char.ofNat 0) ∧ ∃ b, encoding.encode s = some b ∧ b.length ≤ size
  | .pad, _ => True
  | .pascal, .bytes _ => True
  | .other format, .other v => ∃ b, format.pack v = some b
  | _, _ => False

/-- The value without its text. -/
def Value.encoded (encoding : TextCodec) : Value V → Value V
  | .str s => .bytes ((encoding.encode s).getD [])
  | value => value

/-- The value of a field is not changed on the way: a text is not encoded with a zero byte at its end,
    the field is packed, and if it is a Pascal string, which keeps no byte, it is empty. -/
def Survives (encoding : TextCodec) : Item V → Value V → Prop
  | .string _, .str s => ∀ b, encoding.encode s = some b → b.getLast? ≠ some 0
  | .pad, _ => False
  | .pascal, .bytes b => b = []
  | _, _ => True

theorem rstripNul_concat_zero (b : Bytes) : rstripNul (b ++ [0]) = rstripNul b :=
  List.rdropWhile_concat_pos _ _ _ rfl

theorem rstripNul_append (b : Bytes) (k : ℕ) :
    rstripNul (b ++ List.replicate k 0) = rstripNul b := by
  induction k with
  | zero => rw [List.replicate_zero, List.append_nil]
  | succ k ih => rw [List.replicate_succ', ← List.append_assoc, rstripNul_concat_zero, ih]

theorem rstripNul_self {b : Bytes} (h : b.getLast? ≠ some 0) : rstripNul b = b := by
  rw [rstripNul, List.rdropWhile_eq_self_iff]
  intro hne hlast
  rw [List.getLast?_eq_some_getLast hne, of_decide_eq_true hlast] at h
  exact h rfl

theorem rstripNul_zeros (b : Bytes) : ∃ k, b = rstripNul b ++ List.replicate k 0 := by
  induction b using List.reverseRecOn with
  | nil => exact ⟨0, rfl⟩
  | append_singleton b x ih =>
    by_cases hx : x = 0
    · obtain ⟨k, hk⟩ := ih
      refine ⟨k + 1, ?_⟩
      rw [hx, rstripNul_concat_zero, List.replicate_succ', ← List.append_assoc, ← hk]
    · refine ⟨0, ?_⟩
      rw [List.replicate_zero, List.append_nil, rstripNul_self]
      rw [List.getLast?_concat]
      exact fun h => hx (Option.some.inj h)

section
variable {ser : NamedTupleStructSerializer V} {encoding : TextCodec}

/-- The text of a field comes back iff no byte of it is taken for padding. -/
theorem decodeValue_padded (hencoding : ser.encoding = some encoding)
    (hstrip : ser.stripTrailingNul = true) {s : String} {b : Bytes} {size : ℕ}
    (hs : encoding.encode s = some b) (hsize : b.length ≤ size) :
    ser.decodeValue ((Item.string size).padded (.bytes b)) = .ok (.str s) ↔
      b.getLast? ≠ some 0 := by
  have hdecode : ser.decodeValue ((Item.string size).padded (.bytes b)) = .ok (.str s) ↔
      encoding.decode (rstripNul b) = some s := by
    rw [Item.padded, NamedTupleStructSerializer.decodeValue, hstrip, hencoding,
      List.take_of_length_le hsize, if_pos rfl, rstripNul_append]
    dsimp only
    cases encoding.decode (rstripNul b) with
    | none => exact ⟨fun h => (by cases h), fun h => (by cases h)⟩
    | some s' =>
      constructor
      · intro h
        cases h
        rfl
      · intro h
        cases h
        rfl
  rw [hdecode]
  constructor
  · intro h hlast
    obtain ⟨b', rfl⟩ := List.getLast?_eq_some_iff.1 hlast
    obtain ⟨k, hk⟩ := rstripNul_zeros b'
    rw [rstripNul_concat_zero] at h
    refine encoding.decode_ne s (rstripNul b') k ?_ h
    rw [hs, List.replicate_succ', ← List.append_assoc, ← hk]
  · intro hlast
    rw [rstripNul_self hlast]
    exact encoding.decode_encode s b hs

/-- A text fits a string, a byte string a Pascal string, and another value what packs it. -/
theorem Fits.cases {item : Item V} {value : Value V} (h : Fits encoding item value)
    (hpad : item.isPad = false) :
    (∃ size s b, item = .string size ∧ value = .str s ∧
      s.toList.getLast? ≠ some (Char.ofNat 0) ∧ encoding.encode s = some b ∧ b.length ≤ size) ∨
    (∃ b, item = .pascal ∧ value = .bytes b) ∨
    ∃ format v b, item = .other format ∧ value = .other v ∧ format.pack v = some b := by
  cases item with
  | string size =>
    cases value with
    | str s =>
      obtain ⟨hlast, b, hb, hsize⟩ := h
      exact .inl ⟨size, s, b, rfl, rfl, hlast, hb, hsize⟩
    | bytes b => exact h.elim
    | other v => exact h.elim
  | pad => cases hpad
  | pascal =>
    cases value with
    | bytes b => exact .inr (.inl ⟨b, rfl, rfl⟩)
    | str s => exact h.elim
    | other v => exact h.elim
  | other format =>
    cases value with
    | other v =>
      obtain ⟨b, hb⟩ := h
      exact .inr (.inr ⟨format, v, b, rfl, rfl, hb⟩)
    | str s => exact h.elim
    | bytes b => exact h.elim

/-- The value fits its field, which is no pad byte. -/
def Packs (encoding : TextCodec) (item : Item V) (value : Value V) : Prop :=
  Fits encoding item value ∧ item.isPad = false

theorem packs_of_fits {items : List (Item V)} {packet : List (Value V)}
    (h : List.Forall₂ (Fits encoding) items packet) (hpad : ∀ item ∈ items, item.isPad = false) :
    List.Forall₂ (Packs encoding) items packet := by
  induction h with
  | nil => exact .nil
  | cons hvalue _ ih =>
    exact .cons ⟨hvalue, hpad _ List.mem_cons_self⟩
      (ih fun item hitem => hpad item (List.mem_cons_of_mem _ hitem))

/-- No value survives in a pad byte. -/
theorem Survives.not_pad {items : List (Item V)} {packet : List (Value V)} {item : Item V}
    (h : List.Forall₂ (Survives encoding) items packet) (hitem : item ∈ items) :
    ¬ item.isPad = true := by
  induction h with
  | nil => cases hitem
  | @cons item' value _ _ hvalue _ ih =>
    rcases List.mem_cons.1 hitem with rfl | hitem
    · intro hpad
      cases item with
      | pad => exact hvalue
      | string size => cases hpad
      | pascal => cases hpad
      | other format => cases hpad
    · exact ih hitem

/-- What is packed for a value of a packet. -/
theorem Packs.pack {item : Item V} {value : Value V} (h : Packs encoding item value) :
    ∃ b, item.pack (value.encoded encoding) = some b := by
  obtain ⟨size, s, -, rfl, rfl, -⟩ | ⟨b, rfl, rfl⟩ | ⟨format, v, b, rfl, rfl, hb⟩ := h.1.cases h.2
  · exact ⟨_, rfl⟩
  · exact ⟨_, rfl⟩
  · exact ⟨b, hb⟩

theorem forall₂_pack {items : List (Item V)} {packet : List (Value V)}
    (h : List.Forall₂ (Packs encoding) items packet) :
    List.Forall₂ (fun item value => ∃ b, item.pack value = some b) items
      (packet.map (Value.encoded encoding)) :=
  List.forall₂_map_right_iff.2 (h.imp fun _ _ => Packs.pack)

theorem encodeValue_of_fits {stringFields : List String} {field : String} {item : Item V}
    {value : Value V} (hfield : field ∈ stringFields ↔ item.isString)
    (hvalue : Packs encoding item value) :
    (if field ∈ stringFields then NamedTupleStructSerializer.encodeValue encoding value
      else .ok value) = .ok (value.encoded encoding) := by
  obtain ⟨size, s, b, rfl, rfl, -, hb, -⟩ | ⟨b, rfl, rfl⟩ | ⟨format, v, -, rfl, rfl, -⟩ :=
    hvalue.1.cases hvalue.2
  · rw [if_pos (hfield.2 rfl), NamedTupleStructSerializer.encodeValue, hb, Value.encoded, hb]
    rfl
  · rw [if_neg fun h => by cases hfield.1 h]
    rfl
  · rw [if_neg fun h => by cases hfield.1 h]
    rfl

/-- Without string fields, nothing is replaced. -/
theorem replaceStrings_nil {f : Value V → Except Error (Value V)} {packet : List (Value V)}
    (h : ser.stringFields = []) (hlength : packet.length = ser.fields.length) :
    ser.replaceStrings f packet = .ok packet := by
  rw [NamedTupleStructSerializer.replaceStrings, h, List.find?_nil]
  dsimp only
  generalize ser.fields = fields at hlength
  induction fields generalizing packet with
  | nil =>
    rw [List.length_eq_zero_iff.1 hlength]
    rfl
  | cons field fields ih =>
    cases packet with
    | nil => cases hlength
    | cons value packet =>
      rw [List.zip_cons_cons, MapM.cons_eq_ok]
      exact ⟨value, packet, if_neg List.not_mem_nil, ih (Nat.succ.inj hlength), rfl⟩

theorem iterValues_eq (hencoding : ser.encoding = some encoding) {packet : List (Value V)}
    (hlength : packet.length = ser.fields.length) : ser.iterValues packet =
      ser.replaceStrings (NamedTupleStructSerializer.encodeValue encoding) packet := by
  rw [NamedTupleStructSerializer.iterValues, hencoding]
  dsimp only
  split_ifs with h
  · rfl
  · rw [replaceStrings_nil (not_not.1 h) hlength]

theorem fromTuple_eq {packet : List (Value V)} (hlength : packet.length = ser.fields.length) :
    ser.fromTuple packet = ser.replaceStrings ser.decodeValue packet := by
  rw [NamedTupleStructSerializer.fromTuple, if_neg (not_not.2 hlength)]
  split_ifs with h
  · rfl
  · rw [replaceStrings_nil (not_not.1 h) hlength]

theorem replaceStrings_of_mem (f : Value V → Except Error (Value V)) (packet : List (Value V))
    (h : ∀ field ∈ ser.stringFields, field ∈ ser.fields) : ser.replaceStrings f packet =
      (ser.fields.zip packet).mapM fun (field, value) =>
        if field ∈ ser.stringFields then f value else .ok value := by
  have hfind : ser.stringFields.find? (· ∉ ser.fields) = none :=
    List.find?_eq_none.2 fun field hfield => by
      rw [decide_eq_true_eq, not_not]
      exact h field hfield
  rw [NamedTupleStructSerializer.replaceStrings, hfind]

/-- `getattr()` of what is no field of the named tuple. -/
theorem replaceStrings_of_not_mem (f : Value V → Except Error (Value V)) (packet : List (Value V))
    (h : ¬ ∀ field ∈ ser.stringFields, field ∈ ser.fields) :
    ∃ field, ser.replaceStrings f packet = .error (.attributeError field) := by
  cases hfind : ser.stringFields.find? (· ∉ ser.fields) with
  | none =>
    refine absurd (fun field hfield => ?_) h
    have hmem := List.find?_eq_none.1 hfind field hfield
    rwa [decide_eq_true_eq, not_not] at hmem
  | some field =>
    refine ⟨field, ?_⟩
    rw [NamedTupleStructSerializer.replaceStrings, hfind]

/-- `_replace()` of the encoded texts. -/
theorem mapM_encodeValue {stringFields fields : List String} {items : List (Item V)}
    {packet : List (Value V)}
    (hfields : List.Forall₂ (fun field item => field ∈ stringFields ↔ item.isString) fields items)
    (hpacket : List.Forall₂ (Packs encoding) items packet) :
    ((fields.zip packet).mapM fun (field, value) =>
      if field ∈ stringFields then NamedTupleStructSerializer.encodeValue encoding value
      else .ok value) = .ok (packet.map (Value.encoded encoding)) := by
  induction hfields generalizing packet with
  | nil =>
    cases hpacket
    rfl
  | cons hfield _ ih =>
    cases hpacket with
    | cons hvalue hpacket =>
      rw [List.zip_cons_cons, MapM.cons_eq_ok]
      exact ⟨_, _, encodeValue_of_fits hfield hvalue, ih hpacket, rfl⟩

theorem decodeValue_of_packs (hencoding : ser.encoding = some encoding)
    (hstrip : ser.stripTrailingNul = true) {field : String} {item : Item V} {value : Value V}
    (hfield : field ∈ ser.stringFields ↔ item.isString) (hvalue : Packs encoding item value) :
    (if field ∈ ser.stringFields then ser.decodeValue (item.padded (value.encoded encoding))
      else .ok (item.padded (value.encoded encoding))) = .ok value ↔
        Survives encoding item value := by
  obtain ⟨size, s, b, rfl, rfl, -, hb, hsize⟩ | ⟨b, rfl, rfl⟩ | ⟨format, v, -, rfl, rfl, -⟩ :=
    hvalue.1.cases hvalue.2
  · rw [if_pos (hfield.2 rfl), Value.encoded, hb, Option.getD_some,
      decodeValue_padded hencoding hstrip hb hsize]
    constructor
    · intro h b' hb'
      cases hb.symm.trans hb'
      exact h
    · exact fun h => h b hb
  · rw [if_neg fun h => by cases hfield.1 h]
    constructor
    · intro h
      cases h
      rfl
    · rintro rfl
      rfl
  · rw [if_neg fun h => by cases hfield.1 h]
    exact ⟨fun _ => trivial, fun _ => rfl⟩

/-- `_replace()` of the decoded texts. -/
theorem mapM_decodeValue (hencoding : ser.encoding = some encoding)
    (hstrip : ser.stripTrailingNul = true) {fields : List String} {items : List (Item V)}
    {packet : List (Value V)}
    (hfields : List.Forall₂ (fun field item => field ∈ ser.stringFields ↔ item.isString) fields
      items)
    (hpacket : List.Forall₂ (Packs encoding) items packet) :
    ((fields.zip (List.zipWith Item.padded items (packet.map (Value.encoded encoding)))).mapM
      fun (field, value) =>
        if field ∈ ser.stringFields then ser.decodeValue value else .ok value) = .ok packet ↔
      List.Forall₂ (Survives encoding) items packet := by
  induction hfields generalizing packet with
  | nil =>
    cases hpacket
    exact ⟨fun _ => .nil, fun _ => rfl⟩
  | cons hfield _ ih =>
    cases hpacket with
    | cons hvalue hpacket =>
      rw [List.map_cons, List.zipWith_cons_cons, List.zip_cons_cons, MapM.cons_eq_ok,
        List.forall₂_cons, ← ih hpacket, ← decodeValue_of_packs hencoding hstrip hfield hvalue]
      constructor
      · rintro ⟨value, packet, hvalue, hpacket, heq⟩
        cases heq
        exact ⟨hvalue, hpacket⟩
      · rintro ⟨hvalue, hpacket⟩
        exact ⟨_, _, hvalue, hpacket, rfl⟩

theorem length_of_replaceStrings {f : Value V → Except Error (Value V)}
    {packet values : List (Value V)} (h : ser.replaceStrings f packet = .ok values)
    (hlength : packet.length = ser.fields.length) : values.length = packet.length := by
  rw [NamedTupleStructSerializer.replaceStrings] at h
  split at h
  · cases h
  · rw [MapM.eq_ok] at h
    rw [← h.length_eq, List.length_zip, hlength, Nat.min_self]

/-- With a pad byte, there is a value too many for `pack`. -/
theorem not_serialized_of_pad {codec : TextCodec} (hencoding : ser.encoding = some codec)
    {packet : List (Value V)} (hlength : packet.length = ser.fields.length)
    (hitems : ser.items.length = ser.fields.length) {item : Item V} (hitem : item ∈ ser.items)
    (hpad : item.isPad = true) (data : Bytes) : ser.serialize packet ≠ .ok data := by
  intro h
  rw [NamedTupleStructSerializer.serialize] at h
  obtain ⟨values, hvalues, h⟩ := MapM.bind_eq_ok h
  rw [iterValues_eq hencoding hlength] at hvalues
  have hcount := length_of_replaceStrings hvalues hlength
  split at h
  · next data' hdata =>
    have hpacked := length_of_packFrom hdata
    have hlt : ser.items.countP (fun item => !item.isPad) < ser.items.length := by
      refine lt_of_le_of_ne List.countP_le_length fun heq => ?_
      have hall := List.countP_eq_length.1 heq item hitem
      rw [hpad] at hall
      cases hall
    omega
  · cases h

end

/-- A packet comes back iff every string field is a field of the named tuple and every value survives. -/
theorem roundTrip_codec {codec : TextCodec}
    (h : init unicode formats fields fieldFormats formatEndianness (some codec) true = .ok ser)
    {packet : List (Value V)} (hpacket : List.Forall₂ (Fits codec) ser.items packet) :
    (∃ data, ser.serialize packet = .ok data ∧ ser.deserialize data = .ok packet) ↔
      (∀ field ∈ ser.stringFields, field ∈ ser.fields) ∧
        List.Forall₂ (Survives codec) ser.items packet := by
  obtain ⟨hencoding, hstrip, hfields⟩ := init_spec h
  have hlength : packet.length = ser.fields.length :=
    hpacket.length_eq.symm.trans hfields.length_eq.symm
  by_cases hpad : ∃ item ∈ ser.items, item.isPad = true
  · obtain ⟨item, hitem, hpad⟩ := hpad
    constructor
    · rintro ⟨data, hdata, -⟩
      exact absurd hdata
        (not_serialized_of_pad hencoding hlength hfields.length_eq.symm hitem hpad data)
    · rintro ⟨-, hsurvive⟩
      exact absurd hpad (Survives.not_pad hsurvive hitem)
  have hpacks : List.Forall₂ (Packs codec) ser.items packet := packs_of_fits hpacket fun item hitem =>
    Bool.eq_false_iff.2 fun h => hpad ⟨item, hitem, h⟩
  by_cases hmem : ∀ field ∈ ser.stringFields, field ∈ ser.fields
  · obtain ⟨data, hdata, hsize, hvalues⟩ := unpackFrom_packFrom (forall₂_pack hpacks) 0
    have hserialize : ser.serialize packet = .ok data := by
      rw [NamedTupleStructSerializer.serialize, iterValues_eq hencoding hlength,
        replaceStrings_of_mem _ _ hmem, mapM_encodeValue hfields hpacks]
      dsimp only [bind, Except.bind]
      rw [pack, hdata]
      rfl
    have hdeserialize : ser.deserialize data = .ok packet ↔
        List.Forall₂ (Survives codec) ser.items packet := by
      rw [← mapM_decodeValue hencoding hstrip hfields hpacks, ← replaceStrings_of_mem _ _ hmem,
        ← fromTuple_eq, NamedTupleStructSerializer.deserialize, unpack, if_pos hsize, hvalues]
      rw [List.length_zipWith, List.length_map, hpacket.length_eq, Nat.min_self, hlength]
    constructor
    · rintro ⟨data', hdata', hpacket'⟩
      cases hserialize.symm.trans hdata'
      exact ⟨hmem, hdeserialize.1 hpacket'⟩
    · rintro ⟨-, hsurvive⟩
      exact ⟨data, hserialize, hdeserialize.2 hsurvive⟩
  · refine ⟨?_, fun h => absurd h.1 hmem⟩
    rintro ⟨data, hdata, -⟩
    obtain ⟨field, herror⟩ := replaceStrings_of_not_mem
      (NamedTupleStructSerializer.encodeValue codec) packet hmem
    rw [NamedTupleStructSerializer.serialize, iterValues_eq hencoding hlength, herror] at hdata
    cases hdata

/-! ## The encodings -/

/-- The encodings of texts. -/
inductive Encoding where
  | utf8
  /-- UTF-16, with a byte order or with a mark -/
  | utf16 (order : TextCodec.ByteOrder) (mark : Bool)
  /-- UTF-32, with a byte order or with a mark -/
  | utf32 (order : TextCodec.ByteOrder) (mark : Bool)
  /-- one byte for a character -/
  | charmap (table : TextCodec.Charmap)

def Encoding.codec : Encoding → TextCodec
  | .utf8 => .utf8
  | .utf16 order false => TextCodec.utf16.ordered order
  | .utf16 order true => TextCodec.utf16.marked order
  | .utf32 order false => TextCodec.utf32.ordered order
  | .utf32 order true => TextCodec.utf32.marked order
  | .charmap table => .charmap table

variable {enc : Encoding}

/-- **The round trip**, for every encoding. -/
theorem roundTrip_iff
    (h : init unicode formats fields fieldFormats formatEndianness (some enc.codec) true = .ok ser)
    {packet : List (Value V)} (hpacket : List.Forall₂ (Fits enc.codec) ser.items packet) :
    (∃ data, ser.serialize packet = .ok data ∧ ser.deserialize data = .ok packet) ↔
      (∀ field ∈ ser.stringFields, field ∈ ser.fields) ∧
        List.Forall₂ (Survives enc.codec) ser.items packet :=
  roundTrip_codec h hpacket

/-- The characters are ASCII ones. -/
def UnicodeData.ascii : UnicodeData := ⟨Char.isDigit, Char.isAlpha, fun _ _ => rfl, fun _ _ => rfl⟩

/-- `B` -/
def unsignedChar : CharFormat ℕ where
  size := 1
  alignment := 1
  pack n := if n < 256 then some [UInt8.ofNat n] else none
  unpack b := (b.headD 0).toNat
  length_pack n b h := by
    split_ifs at h
    cases h
    rfl
  unpack_pack n b h := by
    split_ifs at h with hn
    cases h
    exact UInt8.toNat_ofNat_of_lt' hn

/-- `Person("A", 20)` with UTF-16-BE. -/
theorem roundTrip_utf16_big : ∃ (ser : NamedTupleStructSerializer ℕ) (data : Bytes),
    init .ascii (fun _ c => if c = 'B' then some unsignedChar else none) ["name", "age"]
        ⟨[("name", "4s"), ("age", "B")], by decide⟩ ">"
        (some (Encoding.utf16 .big false).codec) true = .ok ser ∧
      ser.serialize [.str "A", .other 20] = .ok data ∧
      ser.deserialize data = .ok [.str "A", .other 20] := by
  have hpacket : List.Forall₂ (Fits (Encoding.utf16 .big false).codec)
      [.string 4, .other unsignedChar] [.str "A", .other 20] :=
    .cons ⟨by decide, [0, 65], rfl, by decide⟩ (.cons ⟨[20], rfl⟩ .nil)
  have hinit : init .ascii (fun _ c => if c = 'B' then some unsignedChar else none) ["name", "age"]
      ⟨[("name", "4s"), ("age", "B")], by decide⟩ ">" (some (Encoding.utf16 .big false).codec) true =
        .ok ⟨["name", "age"], [.string 4, .other unsignedChar], ["name"],
          some (Encoding.utf16 .big false).codec, true⟩ := rfl
  have hsurvive : List.Forall₂ (Survives (Encoding.utf16 .big false).codec)
      [.string 4, .other unsignedChar] [.str "A", .other 20] := by
    refine .cons ?_ (.cons trivial .nil)
    intro b hb
    cases hb
    decide
  obtain ⟨data, hdata, hback⟩ := (roundTrip_iff hinit hpacket).2 ⟨by decide, hsurvive⟩
  exact ⟨_, data, hinit, hdata, hback⟩

/-- The high byte of `"A"` in UTF-16-LE is taken for padding. -/
theorem utf16_little_not_roundTrip : ∃ ser : NamedTupleStructSerializer ℕ,
    init .ascii (fun _ _ => none) ["name"] ⟨[("name", "2s")], by decide⟩ ""
        (some (Encoding.utf16 .little false).codec) true = .ok ser ∧
      List.Forall₂ (Fits (Encoding.utf16 .little false).codec) ser.items [.str "A"] ∧
      ser.serialize [.str "A"] = .ok [65, 0] ∧
      ser.deserialize [65, 0] = .error .unicodeError := by
  refine ⟨⟨["name"], [.string 2], ["name"], some (Encoding.utf16 .little false).codec, true⟩, rfl,
    .cons ⟨by decide, [65, 0], rfl, by decide⟩ .nil, rfl, rfl⟩

/-- In UTF-8, only NUL has a zero byte. -/
theorem getLast?_encode {s : String} (h : s.toList.getLast? ≠ some (Char.ofNat 0)) :
    (Utf8.encode s).getLast? ≠ some 0 := by
  intro hlast
  rw [Utf8.encode] at hlast
  generalize s.toList = cs at hlast h
  induction cs using List.reverseRecOn with
  | nil => cases hlast
  | append_singleton cs c _ =>
    rw [List.getLast?_concat] at h
    rw [Utf8.encodeList_append, Utf8.encodeList_cons, Utf8.encodeList_nil, List.append_nil] at hlast
    have hmem : (0 : UInt8) ∈ Utf8.encodeChar c := by
      rw [Utf8.encodeChar, List.getLast?_append_of_ne_nil _ String.utf8EncodeChar_ne_nil] at hlast
      exact List.mem_of_getLast? hlast
    have hc := Utf8.eq_of_mem_encodeChar hmem (by decide)
    exact h (congrArg some (Char.ext (UInt32.toNat_inj.1 hc)))

/-- `struct` unpacks what it has packed. -/
def Item.inverts : Item V → Bool
  | .string _ | .other _ => true
  | .pad | .pascal => false

theorem survives_utf8 {items : List (Item V)} {packet : List (Value V)}
    (h : List.Forall₂ (Fits .utf8) items packet) (hitems : ∀ item ∈ items, item.inverts = true) :
    List.Forall₂ (Survives .utf8) items packet := by
  induction h with
  | nil => exact .nil
  | @cons item value _ _ hvalue _ ih =>
    refine .cons ?_ (ih fun item' hitem' => hitems item' (List.mem_cons_of_mem _ hitem'))
    have hinverts := hitems item List.mem_cons_self
    cases item with
    | string size =>
      cases value with
      | str s =>
        rintro b ⟨⟩
        exact getLast?_encode hvalue.1
      | bytes b => trivial
      | other v => trivial
    | pad => cases hinverts
    | pascal => cases hinverts
    | other format => trivial

/-- With UTF-8 every packet comes back, if every string field is a field of the named tuple and no
    field has the format `x` or `p`. -/
theorem roundTrip_utf8
    (h : init unicode formats fields fieldFormats formatEndianness (some .utf8) true = .ok ser)
    (hfields : ∀ field ∈ ser.stringFields, field ∈ ser.fields)
    (hitems : ∀ item ∈ ser.items, item.inverts = true)
    {packet : List (Value V)} (hpacket : List.Forall₂ (Fits .utf8) ser.items packet) :
    ∃ data, ser.serialize packet = .ok data ∧ ser.deserialize data = .ok packet :=
  (roundTrip_codec h hpacket).2 ⟨hfields, survives_utf8 hpacket hitems⟩

end StructSerializer

end EasyNetwork
