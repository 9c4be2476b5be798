/-
  `SocketAncillary` (`lowlevel/socket.py`): control messages of a Unix socket, one for each type.

  The descriptors are kept in an array and the credentials as packed structures; both are the bytes
  of their items here.  What is received may be truncated in the middle of an item.

  `run_spec`: after any calls, what is stored are whole items, and the descriptors are those that
  have been added or received.  Messages that cannot be parsed change at most the order of the types
  (`malformed_changes_order`).
-/
import EasyNetwork.Exceptions
import EasyNetwork.Lib.Dict
import EasyNetwork.Lib.MapM

namespace EasyNetwork

/-! ## Items -/

/-- How an item is packed; `none` if it is out of range. -/
structure ItemFormat (α : Type) where
  size : ℕ
  size_pos : 0 < size
  pack : α → Option Bytes
  unpack : Bytes → α
  length_pack : ∀ a b, pack a = some b → b.length = size
  unpack_pack : ∀ a b, pack a = some b → unpack b = a

namespace ItemFormat
variable {α : Type} (format : ItemFormat α)

/-- The complete items. -/
def items (data : Bytes) : List α :=
  (List.range (data.length / format.size)).map fun i =>
    format.unpack ((data.drop (i * format.size)).take format.size)

variable {format} {data data' : Bytes}

theorem items_append (h : data.length % format.size = 0) (data' : Bytes) :
    format.items (data ++ data') = format.items data ++ format.items data' := by
  obtain ⟨n, hn⟩ := Nat.dvd_of_mod_eq_zero h
  have hdiv : data.length / format.size = n := by
    rw [hn, Nat.mul_div_cancel_left n format.size_pos]
  have hlength : (data ++ data').length / format.size = n + data'.length / format.size := by
    rw [List.length_append, hn, Nat.mul_add_div format.size_pos]
  rw [items, items, items, hlength, hdiv, List.range_add, List.map_append, List.map_map]
  congr 1
  · refine List.map_congr_left fun i hi => congrArg format.unpack ?_
    have hle : i * format.size + format.size ≤ data.length := by
      rw [hn, ← Nat.succ_mul, Nat.mul_comm]
      exact Nat.mul_le_mul_left _ (List.mem_range.1 hi)
    rw [List.drop_append_of_le_length (by omega),
      List.take_append_of_le_length (by rw [List.length_drop]; omega)]
  · refine List.map_congr_left fun i _ => congrArg format.unpack ?_
    have hindex : (n + i) * format.size = data.length + i * format.size := by
      rw [hn, Nat.add_mul, Nat.mul_comm n]
    dsimp only
    rw [hindex, ← List.drop_drop, List.drop_left]

/-- Less than an item. -/
theorem items_of_lt (h : data.length < format.size) : format.items data = [] := by
  rw [items, Nat.div_eq_of_lt h]
  rfl

theorem items_pack {a : α} (h : format.pack a = some data) : format.items data = [a] := by
  have hlength := format.length_pack a data h
  rw [items, hlength, Nat.div_self format.size_pos]
  have hrange : List.range 1 = [0] := rfl
  rw [hrange, List.map_singleton, Nat.zero_mul, List.drop_zero, ← hlength, List.take_length,
    format.unpack_pack a data h]

theorem mod_append (h : data.length % format.size = 0) :
    (data ++ data').length % format.size = data'.length % format.size := by
  rw [List.length_append, Nat.add_mod, h, Nat.zero_add, Nat.mod_mod]

theorem mod_pack {a : α} (h : format.pack a = some data) : data.length % format.size = 0 := by
  rw [format.length_pack a data h, Nat.mod_self]

theorem mod_flatten {β : Type} {f : β → α} {l : List β} {packed : List Bytes}
    (h : List.Forall₂ (fun a b => format.pack (f a) = some b) l packed) :
    packed.flatten.length % format.size = 0 := by
  induction h with
  | nil => exact Nat.zero_mod _
  | cons hpack _ ih => rw [List.flatten_cons, mod_append (mod_pack hpack), ih]

end ItemFormat

/-- A `SocketCredential`. -/
structure SocketCredential where
  pid : ℤ
  uid : ℤ
  gid : ℤ
  deriving DecidableEq, Repr

/-- The constants of the platform (there is no `SCM_CREDENTIALS` on Darwin), and the formats of a
    descriptor (`i`) and of a credential (`@iII`). -/
structure Platform where
  solSocket : ℤ
  scmRights : ℤ
  scmCredentials : Option ℤ
  ne : scmCredentials ≠ some scmRights
  int : ItemFormat ℤ
  ucred : ItemFormat SocketCredential
  getpid : ℤ

/-! ## Messages -/

inductive Kind where
  | rights
  | credentials
  deriving DecidableEq, Repr

/-- A `_RawSCMRights` or a `_RawSCMCredentials`. -/
structure RawSCMessage where
  kind : Kind
  data : Bytes
  deriving DecidableEq, Repr

/-- `SocketAncillaryMessages`. -/
inductive Message where
  | rights (fds : List ℤ)
  | credentials (credentials : List SocketCredential)
  deriving DecidableEq, Repr

def Message.fds : Message → List ℤ
  | .rights fds => fds
  | .credentials _ => []

/-- What the methods may raise. -/
inductive Raised where
  | overflowError
  | structError
  | attributeError
  | assertionError
  | exceptionGroup (message : String) (exceptions : List String)
  deriving DecidableEq, Repr

/-- What `update_from_raw` gets: a triple whose data is a buffer or not, or no triple; an error is
    given by its text. -/
inductive CMsg where
  | triple (level type : ℤ) (data : Except String Bytes)
  | malformed (exc : String)
  deriving DecidableEq, Repr

namespace Platform
variable (platform : Platform)

def rightsKey : ℤ × ℤ := (platform.solSocket, platform.scmRights)

def itemsize : Kind → ℕ
  | .rights => platform.int.size
  | .credentials => platform.ucred.size

/-- `__determine_scm_data_type`. -/
def determineScmDataType (key : ℤ × ℤ) : Option Kind :=
  if key = platform.rightsKey then some .rights
  else if key.1 = platform.solSocket ∧ some key.2 = platform.scmCredentials then some .credentials
  else none

/-- `_RawSCMRights.append`: `array.extend`, which stops at an integer that is out of range. -/
def appendFds (data : Bytes) : List ℤ → Bytes × Option Raised
  | [] => (data, none)
  | fd :: fds =>
    match platform.int.pack fd with
    | some b => appendFds (data ++ b) fds
    | none => (data, some .overflowError)

/-- `_RawSCMCredentials.append`. -/
def appendCreds (data : Bytes) (credentials : List SocketCredential) : Bytes × Option Raised :=
  match credentials.mapM fun ucred => platform.ucred.pack
      { ucred with pid := if ucred.pid ≠ 0 then ucred.pid else platform.getpid } with
  | some packed => (data ++ packed.flatten, none)
  | none => (data, some .structError)

/-- `append_raw`; an array takes whole items only. -/
def appendRaw (raw : RawSCMessage) (data : Bytes) : Except String RawSCMessage :=
  match raw.kind with
  | .rights =>
    if data.length % platform.int.size = 0 then .ok { raw with data := raw.data ++ data }
    else .error "bytes length not a multiple of item size"
  | .credentials => .ok { raw with data := raw.data ++ data }

/-- `messages()` of a raw message; `iter_unpack` takes whole items only. -/
def message (raw : RawSCMessage) : Except Raised Message :=
  match raw.kind with
  | .rights => .ok (.rights (platform.int.items raw.data))
  | .credentials =>
    if raw.data.length % platform.ucred.size = 0 then
      .ok (.credentials (platform.ucred.items raw.data))
    else .error .structError

/-- `__shrink_truncated_data`. -/
def shrinkTruncatedData (data : Bytes) (itemsize : ℕ) : Bytes :=
  data.take (data.length - data.length % itemsize)

variable {platform} {data : Bytes} {n : ℕ}

/-- What is left are whole items. -/
theorem mod_shrinkTruncatedData : (shrinkTruncatedData data n).length % n = 0 := by
  rw [shrinkTruncatedData, List.length_take, Nat.min_eq_left (Nat.sub_le _ _)]
  exact Nat.mod_eq_zero_of_dvd (Nat.dvd_sub_mod data.length)

/-- What is removed is no complete item. -/
theorem items_shrinkTruncatedData {α : Type} (format : ItemFormat α) (data : Bytes) :
    format.items (shrinkTruncatedData data format.size) = format.items data := by
  have hlt := Nat.mod_lt data.length format.size_pos
  have hle := Nat.mod_le data.length format.size
  have hrest : (data.drop (data.length - data.length % format.size)).length < format.size := by
    rw [List.length_drop]
    omega
  calc format.items (shrinkTruncatedData data format.size)
      = format.items (shrinkTruncatedData data format.size) ++
          format.items (data.drop (data.length - data.length % format.size)) := by
        rw [ItemFormat.items_of_lt hrest, List.append_nil]
    _ = format.items data := by
        rw [← ItemFormat.items_append mod_shrinkTruncatedData, shrinkTruncatedData,
          List.take_append_drop]

/-- Whole items are taken. -/
theorem appendRaw_shrinkTruncatedData (raw : RawSCMessage) (data : Bytes) :
    platform.appendRaw raw (shrinkTruncatedData data (platform.itemsize raw.kind)) =
      .ok { raw with
        data := raw.data ++ shrinkTruncatedData data (platform.itemsize raw.kind) } := by
  obtain ⟨kind, _⟩ := raw
  cases kind with
  | rights => exact if_pos mod_shrinkTruncatedData
  | credentials => rfl

/-- The integers before the first one that is out of range. -/
def packable (platform : Platform) (fds : List ℤ) : List ℤ :=
  fds.takeWhile fun fd => (platform.int.pack fd).isSome

theorem appendFds_spec (h : data.length % platform.int.size = 0) (fds : List ℤ) :
    (platform.appendFds data fds).1.length % platform.int.size = 0 ∧
      platform.int.items (platform.appendFds data fds).1 =
        platform.int.items data ++ platform.packable fds := by
  induction fds generalizing data with
  | nil => exact ⟨h, (List.append_nil _).symm⟩
  | cons fd fds ih =>
    rw [appendFds, packable, List.takeWhile_cons]
    cases hpack : platform.int.pack fd with
    | none => exact ⟨h, (List.append_nil _).symm⟩
    | some b =>
      have hwhole : (data ++ b).length % platform.int.size = 0 := by
        rw [ItemFormat.mod_append h, ItemFormat.mod_pack hpack]
      obtain ⟨hmod, hitems⟩ := ih hwhole
      refine ⟨hmod, ?_⟩
      rw [hitems, ItemFormat.items_append h, ItemFormat.items_pack hpack, List.append_assoc]
      rfl

theorem appendCreds_spec (h : data.length % platform.ucred.size = 0)
    (credentials : List SocketCredential) :
    (platform.appendCreds data credentials).1.length % platform.ucred.size = 0 := by
  rw [appendCreds]
  split
  · next packed hpacked =>
    dsimp only
    rw [ItemFormat.mod_append h, ItemFormat.mod_flatten (MapM.eq_some.1 hpacked)]
  · exact h

end Platform

/-! ## The ancillary data -/

/-- `SocketAncillary`, by its `__data`. -/
abbrev SocketAncillary := Dict (ℤ × ℤ) RawSCMessage

namespace SocketAncillary
variable (platform : Platform) (self : SocketAncillary)

/-- `__get_or_insert`. -/
def getOrInsert (key : ℤ × ℤ) : Option RawSCMessage × SocketAncillary :=
  match self.get? key with
  | some raw => (some raw, self)
  | none =>
    match platform.determineScmDataType key with
    | some kind => (some ⟨kind, []⟩, self.set key ⟨kind, []⟩)
    | none => (none, self)

/-- `add_fds`. -/
def addFds (fds : List ℤ) : SocketAncillary × Option Raised :=
  match getOrInsert platform self platform.rightsKey with
  | (some ⟨.rights, data⟩, self) =>
    let (data, exc) := platform.appendFds data fds
    (self.set platform.rightsKey ⟨.rights, data⟩, exc)
  | (_, self) => (self, some .assertionError)

/-- `add_creds`, which is missing on Darwin. -/
def addCreds (credentials : List SocketCredential) : SocketAncillary × Option Raised :=
  match platform.scmCredentials with
  | none => (self, some .attributeError)
  | some scmCredentials =>
    match getOrInsert platform self (platform.solSocket, scmCredentials) with
    | (some ⟨.credentials, data⟩, self) =>
      let (data, exc) := platform.appendCreds data credentials
      (self.set (platform.solSocket, scmCredentials) ⟨.credentials, data⟩, exc)
    | (_, self) => (self, some .assertionError)

/-- The messages that are not empty. -/
def nonEmpty : List ((ℤ × ℤ) × RawSCMessage) := self.items.filter fun e => e.2.data ≠ []

/-- `messages`. -/
def messages : Except Raised (List Message) :=
  (nonEmpty self).mapM fun e => platform.message e.2

/-- `iter_fds`. -/
def iterFds : Except Raised (List ℤ) := do
  let messages ← messages platform self
  return messages.flatMap Message.fds

/-- The body of the loop of `update_from_raw`: the exception, if there is one. -/
def readMessage : CMsg → SocketAncillary × Option String
  | .malformed exc => (self, some exc)
  | .triple level type cmsgData =>
    match getOrInsert platform self (level, type) with
    | (none, self) => (self, none)
    | (some raw, self) =>
      match cmsgData with
      | .error exc => (self, some exc)
      | .ok data =>
        match platform.appendRaw raw
            (Platform.shrinkTruncatedData data (platform.itemsize raw.kind)) with
        | .error exc => (self, some exc)
        | .ok raw => (self.set (level, type) raw, none)

def readMessages : SocketAncillary → List CMsg → SocketAncillary × List String
  | self, [] => (self, [])
  | self, cmsg :: messages =>
    let (self, exc) := readMessage platform self cmsg
    let (self, parseErrors) := readMessages self messages
    (self, exc.toList ++ parseErrors)

/-- `update_from_raw`. -/
def updateFromRaw (messages : List CMsg) : SocketAncillary × Option Raised :=
  let (self, parseErrors) := readMessages platform self messages
  (self, if parseErrors ≠ [] then
    some (.exceptionGroup "Failed to parse some messages" parseErrors) else none)

/-- `as_raw`. -/
def asRaw : List (ℤ × ℤ × Bytes) :=
  (nonEmpty self).map fun e => (e.1.1, e.1.2, e.2.data)

/-- A call; the exceptions are caught by the caller. -/
inductive Op where
  | addFds (fds : List ℤ)
  | addCreds (credentials : List SocketCredential)
  | clear
  | updateFromRaw (messages : List CMsg)

def call : Op → SocketAncillary × Option Raised
  | .addFds fds => addFds platform self fds
  | .addCreds credentials => addCreds platform self credentials
  | .clear => (Dict.empty, none)
  | .updateFromRaw messages => updateFromRaw platform self messages

/-- The object after some calls. -/
def run (ops : List Op) : SocketAncillary :=
  ops.foldl (fun self op => (call platform self op).1) Dict.empty

/-! ## What is stored -/

/-- The bytes that are stored for a type. -/
def content (key : ℤ × ℤ) : Bytes := ((self.get? key).map RawSCMessage.data).getD []

/-- Each message is stored under its own type, and has whole items. -/
def WellFormed : Prop := ∀ key raw, self.get? key = some raw →
  platform.determineScmDataType key = some raw.kind ∧
    raw.data.length % platform.itemsize raw.kind = 0

variable {platform self} {key : ℤ × ℤ} {kind : Kind} {raw : RawSCMessage} {data : Bytes}

theorem content_of_get? (h : self.get? key = some raw) : content self key = raw.data := by
  rw [content, h]
  rfl

theorem content_set_self (raw : RawSCMessage) : content (self.set key raw) key = raw.data :=
  content_of_get? (Dict.get?_set_self self key raw)

theorem content_set_of_ne {key' : ℤ × ℤ} (h : key' ≠ key) :
    content (self.set key raw) key' = content self key' := by
  rw [content, content, Dict.get?_set_of_ne h]

theorem WellFormed.empty : WellFormed platform Dict.empty := fun _ _ h => by cases h

theorem WellFormed.set (h : WellFormed platform self)
    (hkey : platform.determineScmDataType key = some raw.kind)
    (hdata : raw.data.length % platform.itemsize raw.kind = 0) :
    WellFormed platform (self.set key raw) := by
  intro key' raw' h'
  by_cases heq : key' = key
  · subst heq
    rw [Dict.get?_set_self] at h'
    cases h'
    exact ⟨hkey, hdata⟩
  · rw [Dict.get?_set_of_ne heq] at h'
    exact h key' raw' h'

theorem getOrInsert_none (h : WellFormed platform self)
    (hkey : platform.determineScmDataType key = none) :
    getOrInsert platform self key = (none, self) := by
  rw [getOrInsert]
  cases hget : self.get? key with
  | some raw =>
    rw [(h key raw hget).1] at hkey
    cases hkey
  | none =>
    dsimp only
    rw [hkey]

/-- A message without items is inserted, at most. -/
theorem getOrInsert_some (h : WellFormed platform self)
    (hkey : platform.determineScmDataType key = some kind) :
    ∃ self' : SocketAncillary,
      getOrInsert platform self key = (some ⟨kind, content self key⟩, self') ∧
      WellFormed platform self' ∧ (content self key).length % platform.itemsize kind = 0 ∧
      ∀ key', content self' key' = content self key' := by
  rw [getOrInsert]
  cases hget : self.get? key with
  | some raw =>
    obtain ⟨hkind, hdata⟩ := h key raw hget
    cases hkey.symm.trans hkind
    rw [content_of_get? hget]
    exact ⟨self, rfl, h, hdata, fun _ => rfl⟩
  | none =>
    have hcontent : content self key = [] := by
      rw [content, hget]
      rfl
    dsimp only
    rw [hkey, hcontent]
    refine ⟨_, rfl, h.set hkey (Nat.zero_mod _), Nat.zero_mod _, fun key' => ?_⟩
    by_cases heq : key' = key
    · rw [heq, content_set_self, hcontent]
    · exact content_set_of_ne heq

/-! ## Messages that are received -/

variable (platform) in
/-- The exception for a message. -/
def failure : CMsg → Option String
  | .malformed exc => some exc
  | .triple level type (.error exc) =>
    if (platform.determineScmDataType (level, type)).isSome then some exc else none
  | .triple _ _ (.ok _) => none

variable (platform) in
/-- What a message adds to a type. -/
def appended (key : ℤ × ℤ) : CMsg → Bytes
  | .malformed _ | .triple _ _ (.error _) => []
  | .triple level type (.ok data) =>
    if (level, type) = key then
      match platform.determineScmDataType key with
      | some kind => Platform.shrinkTruncatedData data (platform.itemsize kind)
      | none => []
    else []

theorem readMessage_of_none (h : WellFormed platform self) {level type : ℤ}
    (hkey : platform.determineScmDataType (level, type) = none) (data : Except String Bytes) :
    readMessage platform self (.triple level type data) = (self, none) := by
  rw [readMessage, getOrInsert_none h hkey]

theorem readMessage_spec (h : WellFormed platform self) (cmsg : CMsg) :
    (readMessage platform self cmsg).2 = failure platform cmsg ∧
      WellFormed platform (readMessage platform self cmsg).1 ∧
      ∀ key, content (readMessage platform self cmsg).1 key =
        content self key ++ appended platform key cmsg := by
  cases cmsg with
  | malformed exc => exact ⟨rfl, h, fun key => (List.append_nil _).symm⟩
  | triple level type data =>
    cases hkey : platform.determineScmDataType (level, type) with
    | none =>
      rw [readMessage_of_none h hkey]
      cases data with
      | error exc =>
        rw [failure, hkey]
        exact ⟨rfl, h, fun key => (List.append_nil _).symm⟩
      | ok data =>
        refine ⟨rfl, h, fun key => ?_⟩
        rw [appended]
        split_ifs with heq
        · rw [← heq, hkey, List.append_nil]
        · rw [List.append_nil]
    | some kind =>
      obtain ⟨self', hget, hself', hmod, hcontent⟩ := getOrInsert_some h hkey
      rw [readMessage, hget]
      cases data with
      | error exc =>
        rw [failure, hkey]
        exact ⟨rfl, hself', fun key => by rw [hcontent, appended, List.append_nil]⟩
      | ok data =>
        dsimp only
        rw [Platform.appendRaw_shrinkTruncatedData]
        refine ⟨rfl, hself'.set hkey ?_, fun key => ?_⟩
        · dsimp only
          rw [List.length_append, Nat.add_mod, hmod, Platform.mod_shrinkTruncatedData, Nat.zero_mod]
        · rw [appended]
          split_ifs with heq
          · rw [← heq, content_set_self, hkey]
          · rw [content_set_of_ne (Ne.symm heq), hcontent, List.append_nil]

/-- **All messages are read**, whatever the others are. -/
theorem readMessages_spec (h : WellFormed platform self) (messages : List CMsg) :
    (readMessages platform self messages).2 = messages.filterMap (failure platform) ∧
      WellFormed platform (readMessages platform self messages).1 ∧
      ∀ key, content (readMessages platform self messages).1 key =
        content self key ++ messages.flatMap (appended platform key) := by
  induction messages generalizing self with
  | nil => exact ⟨rfl, h, fun key => (List.append_nil _).symm⟩
  | cons cmsg messages ih =>
    obtain ⟨hfailure, hread, hcontent⟩ := readMessage_spec h cmsg
    obtain ⟨hfailures, hreads, hcontents⟩ := ih hread
    refine ⟨?_, hreads, fun key => ?_⟩
    · rw [readMessages]
      dsimp only
      rw [hfailures, hfailure, List.filterMap_cons]
      cases failure platform cmsg with
      | none => rfl
      | some exc => rfl
    · rw [readMessages]
      dsimp only
      rw [hcontents, hcontent, List.flatMap_cons, List.append_assoc]

theorem readMessages_append (self : SocketAncillary) (before after : List CMsg) :
    (readMessages platform self (before ++ after)).1 =
      (readMessages platform (readMessages platform self before).1 after).1 := by
  induction before generalizing self with
  | nil => rfl
  | cons cmsg before ih =>
    rw [List.cons_append, readMessages, readMessages]
    exact ih _

/-! ## Runs -/

variable (platform) in
/-- The descriptors that a message has. -/
def received : CMsg → List ℤ
  | .triple level type (.ok data) =>
    if (level, type) = platform.rightsKey then platform.int.items data else []
  | .triple _ _ (.error _) | .malformed _ => []

variable (platform) in
/-- The descriptors after a call. -/
def descriptors (fds : List ℤ) : Op → List ℤ
  | .addFds new => fds ++ platform.packable new
  | .addCreds _ => fds
  | .clear => []
  | .updateFromRaw messages => fds ++ messages.flatMap (received platform)

variable (platform self) in
/-- The descriptors that are stored. -/
def fds : List ℤ := platform.int.items (content self platform.rightsKey)

variable (platform) in
theorem determine_rightsKey : platform.determineScmDataType platform.rightsKey = some .rights :=
  if_pos rfl

theorem determine_credentials {scmCredentials : ℤ}
    (h : platform.scmCredentials = some scmCredentials) :
    platform.determineScmDataType (platform.solSocket, scmCredentials) = some .credentials := by
  have hne : (platform.solSocket, scmCredentials) ≠ platform.rightsKey := fun heq =>
    platform.ne (h.trans (congrArg some (congrArg Prod.snd heq)))
  rw [Platform.determineScmDataType, if_neg hne, if_pos ⟨rfl, h.symm⟩]

variable (platform) in
/-- What is received of a message are its complete descriptors. -/
theorem items_appended (cmsg : CMsg) :
    platform.int.items (appended platform platform.rightsKey cmsg) = received platform cmsg ∧
      (appended platform platform.rightsKey cmsg).length % platform.int.size = 0 := by
  have hnil : platform.int.items [] = [] := ItemFormat.items_of_lt platform.int.size_pos
  cases cmsg with
  | malformed exc => exact ⟨hnil, Nat.zero_mod _⟩
  | triple level type data =>
    cases data with
    | error exc => exact ⟨hnil, Nat.zero_mod _⟩
    | ok data =>
      rw [appended, received]
      split_ifs with h
      · rw [determine_rightsKey]
        exact ⟨Platform.items_shrinkTruncatedData platform.int data,
          Platform.mod_shrinkTruncatedData⟩
      · exact ⟨hnil, Nat.zero_mod _⟩

theorem items_flatMap_appended (hdata : data.length % platform.int.size = 0)
    (messages : List CMsg) :
    platform.int.items (data ++ messages.flatMap (appended platform platform.rightsKey)) =
      platform.int.items data ++ messages.flatMap (received platform) := by
  induction messages generalizing data with
  | nil => rw [List.flatMap_nil, List.flatMap_nil, List.append_nil, List.append_nil]
  | cons cmsg messages ih =>
    obtain ⟨hitems, hmod⟩ := items_appended platform cmsg
    rw [List.flatMap_cons, List.flatMap_cons, ← List.append_assoc,
      ih (by rw [ItemFormat.mod_append hdata, hmod]), ItemFormat.items_append hdata, hitems,
      List.append_assoc]

theorem WellFormed.mod_rights (h : WellFormed platform self) :
    (content self platform.rightsKey).length % platform.int.size = 0 := by
  obtain ⟨_, -, -, hmod, -⟩ := getOrInsert_some h (determine_rightsKey platform)
  exact hmod

/-- **A call** keeps whole items, and the descriptors are as they should be. -/
theorem call_spec (h : WellFormed platform self) (op : Op) :
    WellFormed platform (call platform self op).1 ∧
      fds platform (call platform self op).1 = descriptors platform (fds platform self) op := by
  cases op with
  | addFds new =>
    obtain ⟨self', hget, hself', hmod, hcontent⟩ :=
      getOrInsert_some h (determine_rightsKey platform)
    obtain ⟨hmod', hitems⟩ := Platform.appendFds_spec hmod new
    rw [call, addFds, hget]
    refine ⟨hself'.set (determine_rightsKey platform) hmod', ?_⟩
    rw [fds, content_set_self]
    exact hitems
  | addCreds credentials =>
    rw [call, addCreds]
    cases hscm : platform.scmCredentials with
    | none => exact ⟨h, rfl⟩
    | some scmCredentials =>
      have hkey := determine_credentials hscm
      obtain ⟨self', hget, hself', hmod, hcontent⟩ := getOrInsert_some h hkey
      have hne : platform.rightsKey ≠ (platform.solSocket, scmCredentials) := fun heq => by
        rw [← heq, determine_rightsKey] at hkey
        cases hkey
      dsimp only
      rw [hget]
      refine ⟨hself'.set hkey (Platform.appendCreds_spec hmod credentials), ?_⟩
      rw [fds, content_set_of_ne hne, hcontent]
      rfl
  | clear => exact ⟨WellFormed.empty, ItemFormat.items_of_lt platform.int.size_pos⟩
  | updateFromRaw messages =>
    obtain ⟨-, hreads, hcontent⟩ := readMessages_spec h messages
    rw [call, updateFromRaw]
    refine ⟨hreads, ?_⟩
    rw [fds, hcontent, items_flatMap_appended h.mod_rights]
    rfl

variable (platform) in
/-- The message of whole items. -/
def wholeMessage (raw : RawSCMessage) : Message :=
  match raw.kind with
  | .rights => .rights (platform.int.items raw.data)
  | .credentials => .credentials (platform.ucred.items raw.data)

theorem message_eq (h : raw.data.length % platform.itemsize raw.kind = 0) :
    platform.message raw = .ok (wholeMessage platform raw) := by
  obtain ⟨kind, data⟩ := raw
  cases kind with
  | rights => rfl
  | credentials => exact if_pos h

theorem messages_eq (h : WellFormed platform self) : messages platform self =
    .ok ((nonEmpty self).map fun e => wholeMessage platform e.2) := by
  rw [messages, MapM.eq_ok, List.forall₂_map_right_iff, List.forall₂_same]
  intro e he
  exact message_eq (h e.1 e.2 (Dict.get?_eq_some.2 (List.mem_of_mem_filter he))).2

theorem key_of_rights (h : platform.determineScmDataType key = some .rights) :
    key = platform.rightsKey := by
  rw [Platform.determineScmDataType] at h
  split_ifs at h with h1
  · exact h1
  · cases h

theorem flatMap_filter {α β : Type} {p : α → Bool} {f : α → List β} {l : List α}
    (h : ∀ a ∈ l, p a = false → f a = []) : (l.filter p).flatMap f = l.flatMap f := by
  induction l with
  | nil => rfl
  | cons a l ih =>
    have hl := ih fun b hb => h b (List.mem_cons_of_mem a hb)
    cases ha : p a with
    | true => rw [List.filter_cons_of_pos ha, List.flatMap_cons, List.flatMap_cons, hl]
    | false =>
      rw [List.filter_cons_of_neg (by rw [ha]; exact Bool.false_ne_true), List.flatMap_cons,
        h a List.mem_cons_self ha, List.nil_append, hl]

/-- `iter_fds()` gives the descriptors that are stored. -/
theorem iterFds_eq (h : WellFormed platform self) :
    iterFds platform self = .ok (fds platform self) := by
  have hempty : ∀ e ∈ self.items, decide (e.2.data ≠ []) = false →
      (wholeMessage platform e.2).fds = [] := by
    rintro ⟨key, ⟨kind, data⟩⟩ _ he
    obtain rfl : data = [] := not_not.1 (of_decide_eq_false he)
    cases kind with
    | rights => exact ItemFormat.items_of_lt platform.int.size_pos
    | credentials => rfl
  have hother : ∀ key raw, (key, raw) ∈ self.items → key ≠ platform.rightsKey →
      (wholeMessage platform raw).fds = [] := by
    rintro key ⟨kind, data⟩ hmem hne
    have hkind := (h key _ (Dict.get?_eq_some.2 hmem)).1
    cases kind with
    | rights => exact absurd (key_of_rights hkind) hne
    | credentials => rfl
  rw [iterFds, messages_eq h]
  refine congrArg Except.ok ?_
  rw [List.flatMap_map, nonEmpty, flatMap_filter hempty, Dict.flatMap_eq hother, fds, content]
  cases hget : self.get? platform.rightsKey with
  | none =>
    have hnil : platform.int.items [] = [] := ItemFormat.items_of_lt platform.int.size_pos
    exact hnil.symm
  | some raw =>
    obtain ⟨kind, data⟩ := raw
    cases (determine_rightsKey platform).symm.trans (h _ _ hget).1
    rfl

variable (platform) in
theorem run_concat (ops : List Op) (op : Op) :
    run platform (ops ++ [op]) = (call platform (run platform ops) op).1 := by
  rw [run, List.foldl_append]
  rfl

variable (platform) in
theorem wellFormed_run (ops : List Op) : WellFormed platform (run platform ops) ∧
    fds platform (run platform ops) = ops.foldl (descriptors platform) [] := by
  induction ops using List.reverseRecOn with
  | nil => exact ⟨WellFormed.empty, ItemFormat.items_of_lt platform.int.size_pos⟩
  | append_singleton ops op ih =>
    obtain ⟨hrun, hfds⟩ := ih
    obtain ⟨hcall, hfds'⟩ := call_spec hrun op
    rw [run_concat]
    refine ⟨hcall, ?_⟩
    rw [hfds', hfds, List.foldl_append]
    rfl

/-! ## Messages that are rejected -/

variable (platform) in
/-- A message that is no triple, that is of an unknown type, or whose data is no buffer. -/
def Rejected : CMsg → Prop
  | .malformed _ | .triple _ _ (.error _) => True
  | .triple level type (.ok _) => platform.determineScmDataType (level, type) = none

theorem Rejected.appended {cmsg : CMsg} (h : Rejected platform cmsg) (key : ℤ × ℤ) :
    appended platform key cmsg = [] := by
  cases cmsg with
  | malformed exc => rfl
  | triple level type data =>
    cases data with
    | error exc => rfl
    | ok data =>
      rw [SocketAncillary.appended]
      split_ifs with heq
      · rw [← heq, h]
      · rfl

/-- A rejected message leaves what is stored. -/
theorem content_of_rejected (h : WellFormed platform self) {cmsg : CMsg}
    (hcmsg : Rejected platform cmsg) (before after : List CMsg) (key : ℤ × ℤ) :
    content (call platform self (.updateFromRaw (before ++ cmsg :: after))).1 key =
      content (call platform self (.updateFromRaw (before ++ after))).1 key := by
  obtain ⟨-, -, hwith⟩ := readMessages_spec h (before ++ cmsg :: after)
  obtain ⟨-, -, hwithout⟩ := readMessages_spec h (before ++ after)
  rw [call, call, updateFromRaw, updateFromRaw]
  dsimp only
  rw [hwith, hwithout, List.flatMap_append, List.flatMap_append, List.flatMap_cons,
    hcmsg.appended, List.nil_append]

/-- Without a known type, nothing is inserted. -/
theorem call_of_unknown (h : WellFormed platform self) {cmsg : CMsg}
    (hcmsg : ∀ level type data, cmsg = .triple level type data →
      platform.determineScmDataType (level, type) = none) (before after : List CMsg) :
    (call platform self (.updateFromRaw (before ++ cmsg :: after))).1 =
      (call platform self (.updateFromRaw (before ++ after))).1 := by
  obtain ⟨-, hbefore, -⟩ := readMessages_spec h before
  have hread : (readMessage platform (readMessages platform self before).1 cmsg).1 =
      (readMessages platform self before).1 := by
    cases cmsg with
    | malformed exc => rfl
    | triple level type data =>
      rw [readMessage_of_none hbefore (hcmsg level type data rfl)]
  rw [call, call, updateFromRaw, updateFromRaw]
  dsimp only
  rw [readMessages_append, readMessages_append, readMessages]
  dsimp only
  rw [hread]

/-- What a call stores depends on what has been stored, and not on the order. -/
theorem call_congr {self' : SocketAncillary} (h : WellFormed platform self)
    (h' : WellFormed platform self') (hcontent : ∀ key, content self key = content self' key)
    (op : Op) (key : ℤ × ℤ) :
    content (call platform self op).1 key = content (call platform self' op).1 key := by
  -- a message of a known type that is extended in both objects
  have hset : ∀ {key₀ : ℤ × ℤ} {s s' : SocketAncillary} (raw : RawSCMessage),
      (∀ key, content s key = content self key) → (∀ key, content s' key = content self' key) →
      content (s.set key₀ raw) key = content (s'.set key₀ raw) key := by
    intro key₀ s s' raw hs hs'
    by_cases heq : key = key₀
    · rw [heq, content_set_self, content_set_self]
    · rw [content_set_of_ne heq, content_set_of_ne heq, hs, hs', hcontent]
  cases op with
  | addFds new =>
    obtain ⟨s, hget, -, -, hs⟩ := getOrInsert_some h (determine_rightsKey platform)
    obtain ⟨s', hget', -, -, hs'⟩ := getOrInsert_some h' (determine_rightsKey platform)
    rw [call, call, addFds, addFds, hget, hget', hcontent]
    exact hset _ hs hs'
  | addCreds credentials =>
    rw [call, call, addCreds, addCreds]
    cases hscm : platform.scmCredentials with
    | none => exact hcontent key
    | some scmCredentials =>
      obtain ⟨s, hget, -, -, hs⟩ := getOrInsert_some h (determine_credentials hscm)
      obtain ⟨s', hget', -, -, hs'⟩ := getOrInsert_some h' (determine_credentials hscm)
      dsimp only
      rw [hget, hget', hcontent]
      exact hset _ hs hs'
  | clear => rfl
  | updateFromRaw messages =>
    obtain ⟨-, -, hread⟩ := readMessages_spec h messages
    obtain ⟨-, -, hread'⟩ := readMessages_spec h' messages
    rw [call, call, updateFromRaw, updateFromRaw]
    dsimp only
    rw [hread, hread', hcontent]

theorem run_congr (ops ops' : List Op)
    (h : ∀ key, content (run platform ops) key = content (run platform ops') key)
    (rest : List Op) (key : ℤ × ℤ) :
    content (run platform (ops ++ rest)) key = content (run platform (ops' ++ rest)) key := by
  induction rest using List.reverseRecOn generalizing key with
  | nil =>
    rw [List.append_nil, List.append_nil]
    exact h key
  | append_singleton rest op ih =>
    rw [← List.append_assoc, ← List.append_assoc, run_concat, run_concat]
    exact call_congr (wellFormed_run platform _).1 (wellFormed_run platform _).1 ih op key

/-! ## `as_raw` -/

theorem mem_asRaw {level type : ℤ} : (level, type, data) ∈ asRaw self ↔
    data ≠ [] ∧ content self (level, type) = data := by
  rw [asRaw, List.mem_map]
  constructor
  · rintro ⟨⟨key, raw⟩, he, heq⟩
    cases heq
    obtain ⟨hmem, hne⟩ := List.mem_filter.1 he
    exact ⟨of_decide_eq_true hne, content_of_get? (Dict.get?_eq_some.2 hmem)⟩
  · rintro ⟨hne, hcontent⟩
    rw [content] at hcontent
    cases hget : self.get? (level, type) with
    | none =>
      rw [hget] at hcontent
      exact absurd hcontent.symm hne
    | some raw =>
      rw [hget] at hcontent
      obtain rfl : raw.data = data := hcontent
      exact ⟨((level, type), raw),
        List.mem_filter.2 ⟨Dict.get?_eq_some.1 hget, decide_eq_true hne⟩, rfl⟩

theorem nodup_nonEmpty (self : SocketAncillary) : ((nonEmpty self).map Prod.fst).Nodup :=
  self.nodup.sublist (List.filter_sublist.map _)

/-- There is one message for a type. -/
theorem nodup_asRaw (self : SocketAncillary) : (asRaw self).Nodup := by
  refine List.Nodup.of_map (fun m => (m.1, m.2.1)) ?_
  rw [asRaw, List.map_map]
  exact nodup_nonEmpty self

/-- The messages, but not their order, are given by what is stored. -/
theorem asRaw_perm {self' : SocketAncillary} (h : ∀ key, content self key = content self' key) :
    (asRaw self).Perm (asRaw self') := by
  refine (List.perm_ext_iff_of_nodup (nodup_asRaw self) (nodup_asRaw self')).2 ?_
  rintro ⟨level, type, data⟩
  rw [mem_asRaw, mem_asRaw, h]

/-- A message of `as_raw()`, as `update_from_raw()` gets it. -/
def CMsg.ofRaw (message : ℤ × ℤ × Bytes) : CMsg := .triple message.1 message.2.1 (.ok message.2.2)

/-- Whole items of a new type. -/
theorem readMessage_new (hkey : platform.determineScmDataType key = some raw.kind)
    (hdata : raw.data.length % platform.itemsize raw.kind = 0)
    (hnew : key ∉ self.items.map Prod.fst) :
    readMessage platform self (.triple key.1 key.2 (.ok raw.data)) = (self.set key raw, none) := by
  have hget : self.get? key = none := Dict.lookup_eq_none.2 hnew
  have hinsert : getOrInsert platform self key =
      (some ⟨raw.kind, []⟩, self.set key ⟨raw.kind, []⟩) := by
    rw [getOrInsert, hget]
    dsimp only
    rw [hkey]
  have hshrink : Platform.shrinkTruncatedData raw.data (platform.itemsize raw.kind) = raw.data := by
    rw [Platform.shrinkTruncatedData, hdata, Nat.sub_zero, List.take_length]
  rw [readMessage, hinsert]
  dsimp only
  rw [Platform.appendRaw_shrinkTruncatedData]
  dsimp only
  rw [hshrink, Dict.set_set]
  rfl

theorem readMessages_ofRaw (platform : Platform) (self : SocketAncillary)
    (items : List ((ℤ × ℤ) × RawSCMessage))
    (hitems : ∀ e ∈ items, platform.determineScmDataType e.1 = some e.2.kind ∧
      e.2.data.length % platform.itemsize e.2.kind = 0)
    (hnodup : ((self.items ++ items).map Prod.fst).Nodup) :
    (readMessages platform self
        (items.map fun e => CMsg.triple e.1.1 e.1.2 (.ok e.2.data))).1.items =
      self.items ++ items ∧
    (readMessages platform self
        (items.map fun e => CMsg.triple e.1.1 e.1.2 (.ok e.2.data))).2 = [] := by
  induction items generalizing self with
  | nil => exact ⟨(List.append_nil _).symm, rfl⟩
  | cons e items ih =>
    obtain ⟨key, raw⟩ := e
    obtain ⟨hkey, hdata⟩ := hitems _ List.mem_cons_self
    have hnew : key ∉ self.items.map Prod.fst := fun hmem => by
      rw [List.map_append, List.map_cons] at hnodup
      exact List.disjoint_of_nodup_append hnodup hmem List.mem_cons_self
    have hset : (self.set key raw).items = self.items ++ [(key, raw)] := Dict.items_set hnew raw
    obtain ⟨hread, hfailures⟩ := ih (self.set key raw)
      (fun e he => hitems e (List.mem_cons_of_mem _ he))
      (by rwa [hset, List.append_assoc])
    rw [List.map_cons, readMessages, readMessage_new hkey hdata hnew]
    refine ⟨?_, hfailures⟩
    dsimp only
    rw [hread, hset, List.append_assoc]
    rfl

/-- **Round trip** of `as_raw()`. -/
theorem updateFromRaw_asRaw (h : WellFormed platform self) :
    (updateFromRaw platform Dict.empty ((asRaw self).map CMsg.ofRaw)).2 = none ∧
      ∃ loaded, loaded = (updateFromRaw platform Dict.empty ((asRaw self).map CMsg.ofRaw)).1 ∧
        asRaw loaded = asRaw self ∧ iterFds platform loaded = iterFds platform self := by
  have hmessages : (asRaw self).map CMsg.ofRaw =
      (nonEmpty self).map fun e => CMsg.triple e.1.1 e.1.2 (.ok e.2.data) := by
    rw [asRaw, List.map_map]
    rfl
  obtain ⟨hread, hfailures⟩ := readMessages_ofRaw platform Dict.empty (nonEmpty self)
    (fun e he => h e.1 e.2 (Dict.get?_eq_some.2 (List.mem_of_mem_filter he)))
    (nodup_nonEmpty self)
  rw [← hmessages] at hread hfailures
  have hnonEmpty : nonEmpty (readMessages platform Dict.empty ((asRaw self).map CMsg.ofRaw)).1 =
      nonEmpty self := by
    rw [nonEmpty, hread]
    exact List.filter_eq_self.2 fun e he => (List.mem_filter.1 he).2
  rw [updateFromRaw]
  dsimp only
  refine ⟨by rw [hfailures, if_neg (not_not.2 rfl)], _, rfl, ?_, ?_⟩
  · rw [asRaw, hnonEmpty, asRaw]
  · rw [iterFds, messages, hnonEmpty, iterFds, messages]

/-- A rejected message changes nothing but the order of the types, whatever is done before and
    after. -/
theorem run_of_rejected (ops rest : List Op) (before after : List CMsg) {cmsg : CMsg}
    (hcmsg : Rejected platform cmsg) :
    (asRaw (run platform (ops ++ .updateFromRaw (before ++ cmsg :: after) :: rest))).Perm
      (asRaw (run platform (ops ++ .updateFromRaw (before ++ after) :: rest))) ∧
    iterFds platform (run platform (ops ++ .updateFromRaw (before ++ cmsg :: after) :: rest)) =
      iterFds platform (run platform (ops ++ .updateFromRaw (before ++ after) :: rest)) := by
  have hcontent : ∀ key,
      content (run platform (ops ++ .updateFromRaw (before ++ cmsg :: after) :: rest)) key =
        content (run platform (ops ++ .updateFromRaw (before ++ after) :: rest)) key := by
    intro key
    have hcall := run_congr (ops ++ [.updateFromRaw (before ++ cmsg :: after)])
      (ops ++ [.updateFromRaw (before ++ after)])
      (fun key => by
        rw [run_concat, run_concat]
        exact content_of_rejected (wellFormed_run platform ops).1 hcmsg before after key) rest key
    rwa [List.append_assoc, List.append_assoc] at hcall
  refine ⟨asRaw_perm hcontent, ?_⟩
  rw [iterFds_eq (wellFormed_run platform _).1, iterFds_eq (wellFormed_run platform _).1, fds, fds,
    hcontent]

theorem run_of_unknown (ops rest : List Op) (before after : List CMsg) {cmsg : CMsg}
    (hcmsg : ∀ level type data, cmsg = .triple level type data →
      platform.determineScmDataType (level, type) = none) :
    run platform (ops ++ .updateFromRaw (before ++ cmsg :: after) :: rest) =
      run platform (ops ++ .updateFromRaw (before ++ after) :: rest) := by
  have hcall := call_of_unknown (wellFormed_run platform ops).1 hcmsg before after
  simp only [run, List.foldl_append, List.foldl_cons] at hcall ⊢
  rw [hcall]

/-- **Items, descriptors and messages**, after any calls: what is stored are whole items,
    `iter_fds()` gives the descriptors that have been added or received, all exceptions are reported
    together, a rejected message changes nothing but the order of the types, if its type is known,
    and what `as_raw()` gives can be loaded. -/
theorem run_spec (platform : Platform) (ops : List Op) :
    (∀ key raw, (run platform ops).get? key = some raw →
      raw.data.length % platform.itemsize raw.kind = 0) ∧
    iterFds platform (run platform ops) = .ok (ops.foldl (descriptors platform) []) ∧
    (∀ messages, (updateFromRaw platform (run platform ops) messages).2 =
      if messages.filterMap (failure platform) ≠ [] then
        some (.exceptionGroup "Failed to parse some messages"
          (messages.filterMap (failure platform)))
      else none) ∧
    (∀ before cmsg after rest, Rejected platform cmsg →
      (asRaw (run platform (ops ++ .updateFromRaw (before ++ cmsg :: after) :: rest))).Perm
        (asRaw (run platform (ops ++ .updateFromRaw (before ++ after) :: rest))) ∧
      iterFds platform (run platform (ops ++ .updateFromRaw (before ++ cmsg :: after) :: rest)) =
        iterFds platform (run platform (ops ++ .updateFromRaw (before ++ after) :: rest)) ∧
      ((∀ level type data, cmsg = .triple level type data →
          platform.determineScmDataType (level, type) = none) →
        run platform (ops ++ .updateFromRaw (before ++ cmsg :: after) :: rest) =
          run platform (ops ++ .updateFromRaw (before ++ after) :: rest))) ∧
    (updateFromRaw platform Dict.empty ((asRaw (run platform ops)).map CMsg.ofRaw)).2 = none ∧
      ∃ loaded, loaded = (updateFromRaw platform Dict.empty
          ((asRaw (run platform ops)).map CMsg.ofRaw)).1 ∧
        asRaw loaded = asRaw (run platform ops) ∧
        iterFds platform loaded = iterFds platform (run platform ops) := by
  obtain ⟨hwell, hfds⟩ := wellFormed_run platform ops
  refine ⟨fun key raw hget => (hwell key raw hget).2, ?_, fun messages => ?_, ?_,
    updateFromRaw_asRaw hwell⟩
  · rw [iterFds_eq hwell, hfds]
  · rw [updateFromRaw]
    dsimp only
    rw [(readMessages_spec hwell messages).1]
  · intro before cmsg after rest hcmsg
    obtain ⟨hperm, hiterFds⟩ := run_of_rejected ops rest before after hcmsg
    exact ⟨hperm, hiterFds, run_of_unknown ops rest before after⟩

/-! ## The order of the types -/

namespace Linux

def word (n : ℕ) : Bytes :=
  [UInt8.ofNat (n % 256), UInt8.ofNat (n / 256 % 256), UInt8.ofNat (n / 65536 % 256),
    UInt8.ofNat (n / 16777216 % 256)]

def value : Bytes → ℕ
  | [a, b, c, d] => a.toNat + 256 * b.toNat + 65536 * c.toNat + 16777216 * d.toNat
  | _ => 0

theorem value_word {n : ℕ} (h : n < 4294967296) : value (word n) = n := by
  simp only [word, value, UInt8.toNat_ofNat']
  omega

/-- The two's complement of an `i`. -/
def signed (n : ℕ) : ℤ := if n < 2147483648 then n else n - 4294967296

theorem signed_toNat {n : ℤ} (h : -2147483648 ≤ n ∧ n < 2147483648) :
    signed (value (word (n % 4294967296).toNat)) = n := by
  rw [value_word (by omega), signed]
  split_ifs <;> omega

def int : ItemFormat ℤ where
  size := 4
  size_pos := Nat.succ_pos 3
  pack n :=
    if -2147483648 ≤ n ∧ n < 2147483648 then some (word (n % 4294967296).toNat) else none
  unpack b := signed (value b)
  length_pack n b h := by
    split_ifs at h
    cases h
    rfl
  unpack_pack n b h := by
    split_ifs at h with hn
    cases h
    exact signed_toNat hn

def ucred : ItemFormat SocketCredential where
  size := 12
  size_pos := Nat.succ_pos 11
  pack c :=
    if (-2147483648 ≤ c.pid ∧ c.pid < 2147483648) ∧ (0 ≤ c.uid ∧ c.uid < 4294967296) ∧
        (0 ≤ c.gid ∧ c.gid < 4294967296) then
      some (word (c.pid % 4294967296).toNat ++ word c.uid.toNat ++ word c.gid.toNat)
    else none
  unpack b :=
    ⟨signed (value (b.take 4)), value ((b.drop 4).take 4), value ((b.drop 8).take 4)⟩
  length_pack c b h := by
    split_ifs at h
    cases h
    rfl
  unpack_pack c b h := by
    split_ifs at h with hc
    cases h
    obtain ⟨hpid, huid, hgid⟩ := hc
    have hpid' := signed_toNat hpid
    have huid' : (value (word c.uid.toNat) : ℤ) = c.uid := by
      rw [value_word (by omega)]
      omega
    have hgid' : (value (word c.gid.toNat) : ℤ) = c.gid := by
      rw [value_word (by omega)]
      omega
    cases c
    exact congr (congr (congrArg SocketCredential.mk hpid') huid') hgid'

def constants : Platform where
  solSocket := 1
  scmRights := 1
  scmCredentials := some 2
  ne := fun h => by cases h
  int := int
  ucred := ucred
  getpid := 1000

end Linux

/-- A message with descriptors that is no buffer, before credentials and descriptors are added: what
    `as_raw()` gives begins with the descriptors. -/
theorem malformed_changes_order :
    asRaw (run Linux.constants
        [.updateFromRaw [.triple 1 1 (.error "a bytes-like object is required")],
          .addCreds [⟨1, 0, 0⟩], .addFds [4]]) =
      [(1, 1, [4, 0, 0, 0]), (1, 2, [1, 0, 0, 0, 0, 0, 0, 0, 0, 0, 0, 0])] ∧
    asRaw (run Linux.constants [.updateFromRaw [], .addCreds [⟨1, 0, 0⟩], .addFds [4]]) =
      [(1, 2, [1, 0, 0, 0, 0, 0, 0, 0, 0, 0, 0, 0]), (1, 1, [4, 0, 0, 0])] := by
  constructor <;> rfl

end SocketAncillary

end EasyNetwork
