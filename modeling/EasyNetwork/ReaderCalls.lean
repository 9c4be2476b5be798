/-
  Programs over a `GeneratorStreamReader` (`serializers/tools.py`): any calls of its methods, and
  any chunks that are sent to them.

  A program catches what the methods raise and goes on.  Its run is the list of its calls and of the
  chunks; each call ends with an entry of the log.

  `run_conserves`: what the calls have consumed and the reader's buffer are what has been received,
  and `read_until` has stopped at the first separator.
-/
import EasyNetwork.Tools

namespace EasyNetwork

open Coroutine Search

namespace GeneratorStreamReader
variable {ι : Type}

/-! ## The other methods -/

/-- `read_all()` on a reader that holds `buffer`: the data, and the reader's buffer afterwards. -/
def readAll (buffer : Bytes) : Bytes × Bytes := (buffer, [])

/-- `read(size)`; it is suspended in `while not buffer` only. -/
def read (size : ℤ) (buffer : Bytes) :
    Generator Unit Bytes Unit (Bytes × Bytes) (ReaderError ι × Bytes) where
  next :=
    if size < 0 then .raised (.valueError "size must not be < 0", buffer)
    else if size = 0 then .returned ([], buffer)
    else if buffer = [] then .yielded () ()
    else .returned (buffer.take size.toNat, buffer.drop size.toNat)
  send _ chunk :=
    if chunk = [] then .yielded () ()
    else .returned (chunk.take size.toNat, chunk.drop size.toNat)

/-- `while len(buffer) < n` and the end of `read_exactly`. -/
def readExactlyLoop (n : ℤ) (buffer : Bytes) :
    Resumed (Option Bytes) Unit (Bytes × Bytes) (ReaderError ι × Bytes) :=
  if buffer.length < n then .yielded (some buffer) ()
  else .returned (buffer.take n.toNat, buffer.drop n.toNat)

/-- `read_exactly(n)`; it is suspended in `while not buffer`, or behind it with its `buffer`. -/
def readExactly (n : ℤ) (buffer : Bytes) :
    Generator (Option Bytes) Bytes Unit (Bytes × Bytes) (ReaderError ι × Bytes) where
  next :=
    if n < 0 then .raised (.valueError "n must not be < 0", buffer)
    else if n = 0 then .returned ([], buffer)
    else if buffer = [] then .yielded none ()
    else readExactlyLoop n buffer
  send
    | none, chunk => if chunk = [] then .yielded none () else readExactlyLoop n chunk
    | some buffer, chunk => readExactlyLoop n (buffer ++ chunk)

/-! ## Calls -/

inductive Call where
  | readAll
  | read (size : ℤ)
  | readExactly (n : ℤ)
  | readUntil (separator : Bytes) (limit : ℤ) (keepEnd : Bool)
  deriving DecidableEq, Repr

/-- A method that is suspended. -/
inductive Suspended where
  | read (size : ℤ)
  | readExactly (n : ℤ) (state : Option Bytes)
  | readUntil (separator : Bytes) (limit : ℤ) (keepEnd : Bool) (state : ReadUntil)
  deriving DecidableEq, Repr

/-- What a method does when it is resumed: it ends with the data or with an exception, and with the
    reader's buffer. -/
abbrev Outcome (ι : Type) := Resumed Suspended Unit (Bytes × Bytes) (ReaderError ι × Bytes)

/-- A call on a reader that holds `buffer`; `read_until` refuses every `limit` below one as it does
    zero. -/
def Call.next (buffer : Bytes) : Call → Outcome ι
  | .readAll => .returned (GeneratorStreamReader.readAll buffer)
  | .read size => (GeneratorStreamReader.read size buffer).next.mapState fun _ => .read size
  | .readExactly n =>
    (GeneratorStreamReader.readExactly n buffer).next.mapState (Suspended.readExactly n)
  | .readUntil separator limit keepEnd =>
    (GeneratorStreamReader.readUntil separator limit.toNat keepEnd buffer).next.mapState
      (Suspended.readUntil separator limit keepEnd)

namespace Suspended

def call : Suspended → Call
  | .read size => .read size
  | .readExactly n _ => .readExactly n
  | .readUntil separator limit keepEnd _ => .readUntil separator limit keepEnd

/-- The reader's buffer in the meantime: the methods write it back before each `yield`. -/
def buffer : Suspended → Bytes
  | .read _ | .readExactly _ none | .readUntil _ _ _ .filling => []
  | .readExactly _ (some buffer) | .readUntil _ _ _ (.searching buffer _) => buffer

def send : Suspended → Bytes → Outcome ι
  | .read size, chunk =>
    ((GeneratorStreamReader.read size []).send () chunk).mapState fun _ => .read size
  | .readExactly n state, chunk =>
    ((GeneratorStreamReader.readExactly n []).send state chunk).mapState (Suspended.readExactly n)
  | .readUntil separator limit keepEnd state, chunk =>
    ((GeneratorStreamReader.readUntil separator limit.toNat keepEnd []).send state chunk).mapState
      (Suspended.readUntil separator limit keepEnd)

end Suspended

/-! ## Programs -/

/-- A call with its end. -/
abbrev Entry (ι : Type) := Call × Except (ReaderError ι) Bytes

/-- What a call has consumed: the data, and the separator that is dropped; a call that raises
    consumes nothing. -/
def consumed : Entry ι → Bytes
  | (.readUntil separator _ false, .ok data) => data ++ separator
  | (_, .ok data) => data
  | (_, .error _) => []

/-- A reader with the calls on it, and all the bytes that it has been given. -/
structure Session (ι : Type) where
  buffer : Bytes
  running : Option Suspended
  log : List (Entry ι)
  stream : Bytes

inductive Event where
  | call (call : Call)
  | send (chunk : Bytes)
  deriving DecidableEq, Repr

namespace Session

/-- A new reader. -/
def init (initialBytes : Bytes) : Session ι := ⟨initialBytes, none, [], initialBytes⟩

/-- The reader after a method has been resumed. -/
def resumed (self : Session ι) (call : Call) : Outcome ι → Session ι
  | .yielded s _ => { self with buffer := s.buffer, running := some s }
  | .returned (data, buffer) =>
    { self with buffer, running := none, log := self.log ++ [(call, .ok data)] }
  | .raised (e, buffer) =>
    { self with buffer, running := none, log := self.log ++ [(call, .error e)] }

/-- `none` if a method is called while another is suspended, or a chunk sent while none is. -/
def step (self : Session ι) : Event → Option (Session ι)
  | .call call =>
    match self.running with
    | none => some (self.resumed call (call.next self.buffer))
    | some _ => none
  | .send chunk =>
    match self.running with
    | none => none
    | some s => some ({ self with stream := self.stream ++ chunk }.resumed s.call (s.send chunk))

/-- A run of a program. -/
def run (initialBytes : Bytes) (events : List Event) : Option (Session ι) :=
  events.foldlM step (init initialBytes)

end Session

/-- The bytes that are sent. -/
def sent (events : List Event) : Bytes :=
  events.flatMap fun
    | .call _ => []
    | .send chunk => chunk

/-! ## What a method does -/

variable {b c data : Bytes} {separator : Bytes} {limit : ℤ} {keepEnd : Bool}

/-- The separator is between what comes before and what follows. -/
theorem take_of_occursAt {i : ℕ} (h : OccursAt separator b i) :
    b.take (i + separator.length) = b.take i ++ separator := by
  rw [List.take_add, ← List.prefix_iff_eq_take.1 h]

/-- `read_until` has stopped at the first separator. -/
def StopsAt (separator : Bytes) (keepEnd : Bool) (stream data : Bytes) : Prop :=
  separator ≠ [] ∧ ∃ i, find separator stream = some i ∧
    data = if keepEnd then stream.take (i + separator.length) else stream.take i

/-- What follows does not matter. -/
theorem StopsAt.append (h : StopsAt separator keepEnd b data) (c : Bytes) :
    StopsAt separator keepEnd (b ++ c) data := by
  obtain ⟨hsep, i, hi, hdata⟩ := h
  have hle := find_le hi hsep
  refine ⟨hsep, i, find_append_of_some hi hsep c, ?_⟩
  rw [List.take_append_of_le_length hle, List.take_append_of_le_length (by omega)]
  exact hdata

/-- The data has the separator at its end, or not at all. -/
theorem StopsAt.occursAt (h : StopsAt separator keepEnd b data) :
    (∀ j, OccursAt separator data j → keepEnd = true ∧ j + separator.length = data.length) ∧
      (keepEnd = true → separator <:+ data) := by
  obtain ⟨hsep, i, hi, rfl⟩ := h
  obtain ⟨hat, hfirst, -⟩ := find_eq_some_iff.1 hi
  have hle := find_le hi hsep
  -- an occurrence in the first bytes is one in the stream, and no earlier one
  have hoccurs : ∀ n j, OccursAt separator (b.take n) j → i ≤ j ∧ j + separator.length ≤ n := by
    intro n j hj
    have hlength := hj.le hsep
    rw [List.length_take] at hlength
    refine ⟨?_, by omega⟩
    by_contra hlt
    refine hfirst j (by omega) ?_
    have := hj.append (b.drop n)
    rwa [List.take_append_drop] at this
  have hpos := List.length_pos_iff.2 hsep
  cases keepEnd with
  | true =>
    have hlength : (b.take (i + separator.length)).length = i + separator.length := by
      rw [List.length_take, Nat.min_eq_left hle]
    refine ⟨fun j hj => ?_, fun _ => ?_⟩
    · obtain ⟨hge, hj⟩ := hoccurs _ j hj
      exact ⟨rfl, by rw [if_pos rfl, hlength]; omega⟩
    · rw [if_pos rfl, take_of_occursAt hat]
      exact List.suffix_append _ _
  | false =>
    refine ⟨fun j hj => ?_, fun h => by cases h⟩
    obtain ⟨hge, hj⟩ := hoccurs _ j hj
    omega

/-- A method that is suspended has received `b`. -/
def Suspended.Holds : Suspended → Bytes → Prop
  | .read _, b | .readExactly _ none, b => b = []
  | .readExactly _ (some buffer), b => buffer = b
  | .readUntil separator _ _ state, b => separator ≠ [] ∧ state.Has separator b

theorem Suspended.Holds.buffer_eq {s : Suspended} (h : s.Holds b) : s.buffer = b := by
  match s with
  | .read _ | .readExactly _ none => exact h.symm
  | .readExactly _ (some _) => exact h
  | .readUntil _ _ _ .filling => exact h.2.symm
  | .readUntil _ _ _ (.searching _ _) => exact h.2.1

/-- What a method may do when it has received `b`. -/
def Post (call : Call) (b : Bytes) : Outcome ι → Prop
  | .yielded s _ => s.call = call ∧ s.Holds b
  | .returned (data, buffer) =>
    consumed (ι := ι) (call, .ok data) ++ buffer = b ∧
      ∀ separator limit keepEnd, call = .readUntil separator limit keepEnd →
        StopsAt separator keepEnd b data
  | .raised (_, buffer) => buffer = b

theorem post_read_send (size : ℤ) (chunk : Bytes) :
    Post (.read size) chunk ((Suspended.read size).send chunk : Outcome ι) := by
  dsimp only [Suspended.send, read]
  split_ifs with h
  · exact ⟨rfl, h⟩
  · exact ⟨List.take_append_drop _ _, fun _ _ _ h => by cases h⟩

theorem post_readExactlyLoop (n : ℤ) (b : Bytes) :
    Post (.readExactly n) b
      ((readExactlyLoop n b).mapState (Suspended.readExactly n) : Outcome ι) := by
  rw [readExactlyLoop]
  split_ifs
  · exact ⟨rfl, rfl⟩
  · exact ⟨List.take_append_drop _ _, fun _ _ _ h => by cases h⟩

theorem post_readUntilFound (hsep : separator ≠ []) {i : ℕ} (h : find separator b = some i) :
    Post (.readUntil separator limit keepEnd) b
      ((readUntilFound separator limit.toNat keepEnd b i).mapState
        (Suspended.readUntil separator limit keepEnd) : Outcome ι) := by
  obtain ⟨hat, -, -⟩ := find_eq_some_iff.1 h
  rw [readUntilFound]
  split_ifs with hlimit hkeep
  · exact rfl
  · subst hkeep
    refine ⟨List.take_append_drop _ _, fun separator' limit' keepEnd' heq => ?_⟩
    cases heq
    exact ⟨hsep, i, h, (if_pos rfl).symm⟩
  · have hfalse : keepEnd = false := Bool.eq_false_iff.2 hkeep
    subst hfalse
    refine ⟨?_, fun separator' limit' keepEnd' heq => ?_⟩
    · rw [consumed, ← take_of_occursAt hat, List.take_append_drop]
    · cases heq
      exact ⟨hsep, i, h, (if_neg Bool.false_ne_true).symm⟩

/-- The loop of `read_until`, where nothing before the offset is the separator. -/
theorem post_readUntilLoop (hsep : separator ≠ []) {offset : ℕ} (hoff : offset ≤ b.length)
    (hb : ∀ j < offset, ¬ OccursAt separator b j)
    (ho : b.length < offset + separator.length → offset = b.length + 1 - separator.length) :
    Post (.readUntil separator limit keepEnd) b
      ((readUntilLoop separator limit.toNat keepEnd b offset).mapState
        (Suspended.readUntil separator limit keepEnd) : Outcome ι) := by
  cases h : find separator b with
  | some i =>
    rw [readUntilLoop_some hoff hb hsep h]
    exact post_readUntilFound hsep h
  | none =>
    rcases readUntilLoop_none hoff hb h ho with hloop | ⟨-, hloop⟩
    · rw [hloop]
      exact ⟨rfl, hsep, rfl, h, rfl⟩
    · rw [hloop]
      exact rfl

/-- **A call**, on a reader that holds `b`. -/
theorem post_next (call : Call) (b : Bytes) : Post call b (call.next b : Outcome ι) := by
  cases call with
  | readAll => exact ⟨List.append_nil b, fun _ _ _ h => by cases h⟩
  | read size =>
    dsimp only [Call.next, read]
    split_ifs with h1 h2 h3
    · exact rfl
    · exact ⟨rfl, fun _ _ _ h => by cases h⟩
    · exact ⟨rfl, h3⟩
    · exact ⟨List.take_append_drop _ _, fun _ _ _ h => by cases h⟩
  | readExactly n =>
    dsimp only [Call.next, readExactly]
    split_ifs with h1 h2 h3
    · exact rfl
    · exact ⟨rfl, fun _ _ _ h => by cases h⟩
    · exact ⟨rfl, h3⟩
    · exact post_readExactlyLoop n b
  | readUntil separator limit keepEnd =>
    dsimp only [Call.next, readUntil]
    split_ifs with h1 h2 h3
    · exact rfl
    · exact rfl
    · exact ⟨rfl, fun h => h2 (by rw [h]; exact Nat.one_pos), h3⟩
    · have hsep : separator ≠ [] := fun h => h2 (by rw [h]; exact Nat.one_pos)
      exact post_readUntilLoop hsep (Nat.zero_le _) (fun j hj => absurd hj (Nat.not_lt_zero j))
        (by omega)

/-- **A chunk** that is sent to a method that has received `b`. -/
theorem post_send {s : Suspended} (h : s.Holds b) (c : Bytes) :
    Post s.call (b ++ c) (s.send c : Outcome ι) := by
  match s with
  | .read size =>
    obtain rfl : b = [] := h
    exact post_read_send size c
  | .readExactly n none =>
    obtain rfl : b = [] := h
    dsimp only [Suspended.send, readExactly]
    split_ifs with hc
    · exact ⟨rfl, hc⟩
    · exact post_readExactlyLoop n c
  | .readExactly n (some buffer) =>
    obtain rfl : buffer = b := h
    exact post_readExactlyLoop n (buffer ++ c)
  | .readUntil separator limit keepEnd .filling =>
    obtain ⟨hsep, hb⟩ := h
    obtain rfl : b = [] := hb
    dsimp only [Suspended.send, readUntil]
    split_ifs with hc
    · exact ⟨rfl, hsep, hc⟩
    · exact post_readUntilLoop hsep (Nat.zero_le _) (fun j hj => absurd hj (Nat.not_lt_zero j))
        (by simp only [List.nil_append]; omega)
  | .readUntil separator limit keepEnd (.searching buffer offset) =>
    obtain ⟨hsep, hbuffer, hnone, hoffset⟩ := h
    subst hbuffer hoffset
    obtain ⟨hoff, hb⟩ := offset_spec (c := c) hsep hnone
    exact post_readUntilLoop hsep hoff hb (by rw [List.length_append]; omega)

/-! ## Runs -/

namespace Session

/-- Every `read_until` of the log has stopped at the first separator of the stream, from where it
    has begun. -/
def Stops (log : List (Entry ι)) (stream : Bytes) : Prop :=
  ∀ before separator limit keepEnd data after,
    log = before ++ (.readUntil separator limit keepEnd, .ok data) :: after →
      StopsAt separator keepEnd (stream.drop (before.flatMap consumed).length) data

structure Inv (r : Session ι) : Prop where
  conserved : r.log.flatMap consumed ++ r.buffer = r.stream
  holds : ∀ s, r.running = some s → s.Holds r.buffer
  stops : Stops r.log r.stream

theorem inv_init (initialBytes : Bytes) : (init initialBytes : Session ι).Inv where
  conserved := rfl
  holds _ h := by cases h
  stops before _ _ _ _ after h := by
    have := congrArg List.length h
    rw [List.length_append, List.length_cons] at this
    cases before <;> cases this

variable {r r' : Session ι} {log : List (Entry ι)} {stream : Bytes}

/-- What is sent later does not matter. -/
theorem Stops.append (h : Stops log stream) (hlog : (log.flatMap consumed).length ≤ stream.length)
    (chunk : Bytes) : Stops log (stream ++ chunk) := by
  intro before separator limit keepEnd data after hsplit
  have hle : (before.flatMap consumed).length ≤ stream.length := by
    rw [hsplit, List.flatMap_append, List.length_append] at hlog
    omega
  rw [List.drop_append_of_le_length hle]
  exact (h before separator limit keepEnd data after hsplit).append chunk

/-- One more call. -/
theorem Stops.concat (h : Stops log stream) {e : Entry ι}
    (he : ∀ separator limit keepEnd data, e = (.readUntil separator limit keepEnd, .ok data) →
      StopsAt separator keepEnd (stream.drop (log.flatMap consumed).length) data) :
    Stops (log ++ [e]) stream := by
  intro before separator limit keepEnd data after hsplit
  rcases List.eq_nil_or_concat after with rfl | ⟨after, e', rfl⟩
  · obtain ⟨rfl, heq⟩ := List.append_inj' hsplit rfl
    exact he separator limit keepEnd data (List.cons.inj heq).1
  · rw [List.concat_eq_append, ← List.cons_append, ← List.append_assoc] at hsplit
    obtain ⟨hlog, -⟩ := List.append_inj' hsplit rfl
    exact h before separator limit keepEnd data after hlog

/-- A method that is resumed with what the reader has received and not consumed. -/
theorem inv_resumed (hstops : Stops r.log r.stream)
    (hconserved : r.log.flatMap consumed ++ b = r.stream) {call : Call} {outcome : Outcome ι}
    (hpost : Post call b outcome) :
    (r.resumed call outcome).Inv := by
  have hrest : r.stream.drop (r.log.flatMap consumed).length = b := by
    rw [← hconserved, List.drop_left]
  cases outcome with
  | yielded s _ =>
    have hbuffer := hpost.2.buffer_eq
    refine ⟨?_, fun s' hs' => ?_, hstops⟩
    · rw [resumed, hbuffer]
      exact hconserved
    · cases hs'
      rw [resumed, hbuffer]
      exact hpost.2
  | returned result =>
    obtain ⟨data, buffer⟩ := result
    obtain ⟨hdata, hstop⟩ := hpost
    refine ⟨?_, fun s hs => (by cases hs), hstops.concat ?_⟩
    · rw [resumed]
      dsimp only
      rw [List.flatMap_append, List.flatMap_singleton, List.append_assoc, hdata, hconserved]
    · intro separator limit keepEnd data' heq
      cases heq
      rw [hrest]
      exact hstop separator limit keepEnd rfl
  | raised result =>
    obtain ⟨e, buffer⟩ := result
    obtain rfl : buffer = b := hpost
    refine ⟨?_, fun s hs => (by cases hs), hstops.concat fun _ _ _ _ heq => (by cases heq)⟩
    rw [resumed]
    dsimp only
    rw [List.flatMap_append, List.flatMap_singleton, consumed, List.append_nil, hconserved]

theorem stream_resumed (r : Session ι) (call : Call) (outcome : Outcome ι) :
    (r.resumed call outcome).stream = r.stream := by
  cases outcome <;> rfl

/-- **A step** keeps the invariant. -/
theorem inv_step (h : r.Inv) {event : Event} (hstep : r.step event = some r') :
    r'.Inv ∧ r'.stream = r.stream ++ sent [event] := by
  cases event with
  | call call =>
    rw [step] at hstep
    cases hrunning : r.running with
    | some s =>
      rw [hrunning] at hstep
      cases hstep
    | none =>
      rw [hrunning] at hstep
      cases hstep
      refine ⟨inv_resumed h.stops h.conserved (post_next call r.buffer), ?_⟩
      rw [stream_resumed]
      exact (List.append_nil _).symm
  | send chunk =>
    rw [step] at hstep
    cases hrunning : r.running with
    | none =>
      rw [hrunning] at hstep
      cases hstep
    | some s =>
      rw [hrunning] at hstep
      cases hstep
      have hlog : (r.log.flatMap consumed).length ≤ r.stream.length := by
        rw [← h.conserved, List.length_append]
        exact Nat.le_add_right _ _
      refine ⟨inv_resumed (h.stops.append hlog chunk) ?_
        (post_send (h.holds s hrunning) chunk), ?_⟩
      · rw [← List.append_assoc, h.conserved]
      · rw [stream_resumed, sent, List.flatMap_singleton]

theorem inv_run {initialBytes : Bytes} {events : List Event}
    (h : run initialBytes events = some r) :
    r.Inv ∧ r.stream = initialBytes ++ sent events := by
  induction events using List.reverseRecOn generalizing r with
  | nil =>
    cases h
    exact ⟨inv_init initialBytes, (List.append_nil _).symm⟩
  | append_singleton events event ih =>
    rw [run, List.foldlM_append] at h
    obtain ⟨r₀, hrun, hstep⟩ := Option.bind_eq_some_iff.1 h
    obtain ⟨r₁, hstep, hlast⟩ := Option.bind_eq_some_iff.1 hstep
    cases hlast
    obtain ⟨hinv, hstream⟩ := ih hrun
    obtain ⟨hinv', hstream'⟩ := inv_step hinv hstep
    refine ⟨hinv', ?_⟩
    rw [hstream', hstream, sent, sent, sent, List.flatMap_append, List.append_assoc]

end Session

/-- **The stream is conserved** by every program: what its calls have consumed, followed by the
    reader's buffer, is what the reader has been given; and `read_until` has stopped at the first
    separator. -/
theorem run_conserves {initialBytes : Bytes} {events : List Event} {r : Session ι}
    (h : Session.run initialBytes events = some r) :
    r.log.flatMap consumed ++ r.buffer = initialBytes ++ sent events ∧
      ∀ before separator limit keepEnd data after,
        r.log = before ++ (.readUntil separator limit keepEnd, .ok data) :: after →
          StopsAt separator keepEnd
            ((initialBytes ++ sent events).drop (before.flatMap consumed).length) data ∧
          (∀ j, OccursAt separator data j →
            keepEnd = true ∧ j + separator.length = data.length) ∧
          (keepEnd = true → separator <:+ data) := by
  obtain ⟨hinv, hstream⟩ := Session.inv_run h
  rw [← hstream]
  refine ⟨hinv.conserved, fun before separator limit keepEnd data after hsplit => ?_⟩
  have hstop := hinv.stops before separator limit keepEnd data after hsplit
  exact ⟨hstop, hstop.occursAt⟩

/-- The limit is overrun, then the bytes are read otherwise; the last separator comes in two
    chunks. -/
theorem run_conserves_mixed : (Session.run [7] [.call (.readUntil [13, 10] 1 true), .send [],
      .send [8, 9], .call (.read (-1)), .call (.readExactly 2), .call (.readUntil [13, 10] 1 false),
      .send [13], .send [10, 6]] : Option (Session Unit)).map
    (fun r => r.log.flatMap consumed ++ r.buffer) = some [7, 8, 9, 13, 10, 6] := by
  have hrun : (Session.run [7] [.call (.readUntil [13, 10] 1 true), .send [], .send [8, 9],
      .call (.read (-1)), .call (.readExactly 2), .call (.readUntil [13, 10] 1 false), .send [13],
      .send [10, 6]] : Option (Session Unit)).isSome = true := rfl
  obtain ⟨r, hr⟩ := Option.isSome_iff_exists.1 hrun
  rw [hr]
  exact congrArg some (run_conserves hr).1

end GeneratorStreamReader

end EasyNetwork
