/-
  The calls of a `BufferedStreamDataConsumer`, in any order.

  A caller asks for the write buffer (`get_write_buffer()`), takes packets (`next(None)`), or writes
  a read into the offered buffer and announces it.  `NeverCrashes`: in any run, the offered buffer
  is not empty, and `next()` ends with a packet, `StopIteration` or `StreamProtocolParseError`.

  `Inv.fine_iff`: the protocol's generators stay inside the buffer that the protocol creates and
  leave a byte of it free; then the call that comes next crashes iff the generator raises an exception
  of its own.  `neverCrashes_of_bounded`: none crashes when the generators raise no such exception.
-/
import EasyNetwork.Lib.Bounded
import EasyNetwork.Lib.Trans
import EasyNetwork.Stream

namespace EasyNetwork

open Coroutine

namespace BufferedStreamDataConsumer
variable {σ P ι : Type}

/-! ## Runs -/

/-- What a caller does. -/
inductive Call where
  | getWriteBuffer
  /-- `next(None)` -/
  | next
  /-- write `data` into the offered buffer, and call `next(len(data))` -/
  | read (data : Bytes)
  deriving DecidableEq, Repr

section
variable (proto : BufferedStreamProtocol σ P ι)

/-- The consumer after a call; `none` if the caller cannot make it: a read has at least one byte
    and fits the offered buffer. -/
def step (st : BufferedStreamDataConsumer σ) : Call → Option (BufferedStreamDataConsumer σ)
  | .getWriteBuffer => some (getWriteBuffer proto st).2
  | .next => some (next proto st none).2
  | .read data =>
    match getWriteBuffer proto st with
    | (.ok start, st) =>
      if 1 ≤ data.length ∧ data.length ≤ st.nbytes start then
        some (next proto (st.write start data) (some data.length)).2
      else none
    | (.error _, _) => none

/-- None of the calls that can come next crashes. -/
structure Fine (st : BufferedStreamDataConsumer σ) : Prop where
  offers : ∃ start st', getWriteBuffer proto st = (.ok start, st') ∧ 0 < st'.nbytes start
  takes : ∀ message, (next proto st none).1 ≠ .raised message
  reads : ∀ start st' (data : Bytes), getWriteBuffer proto st = (.ok start, st') →
    1 ≤ data.length → data.length ≤ st'.nbytes start →
      ∀ message, (next proto (st'.write start data) (some data.length)).1 ≠ .raised message

/-- No call of a consumer with this size hint crashes, whatever the calls before it. -/
def NeverCrashes (bufferSizeHint : ℕ) : Prop :=
  ∀ calls st, Trans.run (step proto) (init bufferSizeHint) calls = some st → Fine proto st

end

/-! ## The generator's own exceptions -/

section
variable (proto : BufferedStreamProtocol σ P ι) (st : BufferedStreamDataConsumer σ)

/-- The call that comes next, `next(None)` or a read, resumes the generator in `st'` with `n` more
    bytes. -/
inductive Announces : BufferedStreamDataConsumer σ → ℕ → Prop
  | taking : Announces st 0
  | reading {start st' data} : getWriteBuffer proto st = (.ok start, st') → 1 ≤ data.length →
      data.length ≤ st'.nbytes start → Announces (st'.write start data) data.length

/-- What the generator does when `n` more bytes are announced; `none` if it is not resumed. -/
def resumed (n : ℕ) : Option (Resumed σ (Option ℕ) (P × Bytes) (ProtocolError ι)) :=
  match st.consumer with
  | none => none
  | some s =>
    if n + st.alreadyWritten = 0 then none
    else some (proto.buildPacketFromBuffer.send s (st.buffer.getD []) (n + st.alreadyWritten)).2

/-- The generator ends with an exception that is not a `StreamProtocolParseError`. -/
def Raises (n : ℕ) : Prop := ∃ message, resumed proto st n = some (.raised (.other message))

theorem resumed_eq_some {n : ℕ} {x : Resumed σ (Option ℕ) (P × Bytes) (ProtocolError ι)} :
    resumed proto st n = some x ↔ ∃ s, st.consumer = some s ∧ n + st.alreadyWritten ≠ 0 ∧
      (proto.buildPacketFromBuffer.send s (st.buffer.getD []) (n + st.alreadyWritten)).2 = x := by
  unfold resumed
  rcases st.consumer with _ | s
  · simp
  · simp only [Option.some.injEq, exists_eq_left']
    split_ifs with hzero
    · simp [hzero]
    · exact ⟨fun h => ⟨hzero, Option.some.inj h⟩, fun h => congrArg some h.2⟩

end

/-- What a protocol's generator may end with: it leaves less than `L` bytes, and raises an exception of
    its own only if it `mayRaise`. -/
def Leaves (mayRaise : Prop) (L : ℕ) : Except (ProtocolError ι) (P × Bytes) → Prop
  | .ok (_, remaining) => remaining.length < L
  | .error (.parse exc) => exc.remainingData.length < L
  | .error (.other _) => mayRaise

/-! ## The invariant -/

/-- The protocol creates buffers of `L` bytes, and its generators stay inside them. -/
structure Bounded (proto : BufferedStreamProtocol σ P ι) (bufferSizeHint L : ℕ)
    (good : σ → ℕ → Prop) (mayRaise : Prop) : Prop where
  createBuffer : (proto.createBuffer bufferSizeHint).length = L
  pos : 0 < L
  generator : proto.buildPacketFromBuffer.Bounded L good fun _ => Leaves mayRaise L

section
variable {proto : BufferedStreamProtocol σ P ι} {bufferSizeHint L : ℕ} {good : σ → ℕ → Prop}
  {mayRaise : Prop} {st st' : BufferedStreamDataConsumer σ} {s : σ} {n start : ℕ}
  {remaining data : Bytes}

/-- What holds between two calls. -/
structure Inv (bufferSizeHint L : ℕ) (good : σ → ℕ → Prop) (st : BufferedStreamDataConsumer σ) :
    Prop where
  sizehint : st.sizehint = bufferSizeHint
  buffer : ∀ buffer, st.buffer = some buffer → buffer.length = L
  noBuffer : st.buffer = none → st.consumer = none
  consumer : ∀ s, st.consumer = some s →
    good s st.bufferStart ∧ st.bufferStart + st.alreadyWritten < L
  idle : st.consumer = none → st.alreadyWritten = 0
  exported : ∀ start, st.exportedWriteBufferView = some start →
    st.consumer ≠ none ∧ start = st.bufferStart + st.alreadyWritten

namespace Inv

theorem init : Inv bufferSizeHint L good (init bufferSizeHint) :=
  ⟨rfl, nofun, fun _ => rfl, nofun, fun _ => rfl, nofun⟩

theorem nbytes_eq (h : Inv bufferSizeHint L good st) (hs : st.consumer ≠ none) (start : ℕ) :
    st.nbytes start = L - start := by
  rcases hb : st.buffer with _ | buffer
  · exact absurd (h.noBuffer hb) hs
  · rw [nbytes, hb, Option.getD_some, h.buffer buffer hb]

/-- With a suspended generator, the view that is offered starts where the generator wants it. -/
theorem newWriteBuffer_of_some (h : Inv bufferSizeHint L good st) (hs : st.consumer = some s) :
    newWriteBuffer proto st = (.ok (st.bufferStart + st.alreadyWritten), st) := by
  have hne : st.consumer ≠ none := by rw [hs]; nofun
  have hlt := (h.consumer s hs).2
  rcases hb : st.buffer with _ | buffer
  · exact absurd (h.noBuffer hb) hne
  · simp only [newWriteBuffer, withBuffer, hb, withConsumer, hs, h.nbytes_eq hne]
    rw [if_neg (by omega)]

end Inv

theorem withBuffer_of_none (hp : Bounded proto bufferSizeHint L good mayRaise)
    (hsizehint : st.sizehint = bufferSizeHint)
    (hbuffer : ∀ buffer, st.buffer = some buffer → buffer.length = L) (hs : st.consumer = none) :
    ∃ buffer, buffer.length = L ∧
      withBuffer proto st = .ok (buffer, { st with buffer := some buffer }) := by
  rcases hb : st.buffer with _ | buffer
  · refine ⟨proto.createBuffer bufferSizeHint, hp.createBuffer, ?_⟩
    have hne : proto.createBuffer st.sizehint ≠ [] := by
      rw [hsizehint, ← List.length_pos_iff, hp.createBuffer]
      exact hp.pos
    simp only [withBuffer, hb, hs, Option.isSome_none, Bool.false_eq_true, if_false, if_neg hne]
    rw [hsizehint]
  · refine ⟨buffer, hbuffer buffer hb, ?_⟩
    simp only [withBuffer, hb]
    rw [← hb]

theorem withConsumer_of_none (hp : Bounded proto bufferSizeHint L good mayRaise) (hs : st.consumer = none)
    {buffer : Bytes} (hlen : buffer.length = L) : ∃ s, good s 0 ∧
      withConsumer proto st buffer =
        (.ok (), { st with bufferStart := 0, consumer := some s }) := by
  obtain ⟨s, y, hnext, hy, hgood⟩ := hp.generator.next buffer hlen
  refine ⟨s, hgood, ?_⟩
  simp only [withConsumer, hs, hnext, hy]

/-- Without a generator, one is started, and the view that is offered is the whole buffer. -/
theorem newWriteBuffer_of_none (hp : Bounded proto bufferSizeHint L good mayRaise)
    (hsizehint : st.sizehint = bufferSizeHint)
    (hbuffer : ∀ buffer, st.buffer = some buffer → buffer.length = L) (hs : st.consumer = none)
    (hzero : st.alreadyWritten = 0) : ∃ s buffer, buffer.length = L ∧ good s 0 ∧
      newWriteBuffer proto st = (.ok 0,
        { st with buffer := some buffer, bufferStart := 0, consumer := some s }) := by
  obtain ⟨buffer, hlen, hwith⟩ := withBuffer_of_none hp hsizehint hbuffer hs
  have hs' : { st with buffer := some buffer }.consumer = none := hs
  obtain ⟨s, hgood, hstart⟩ := withConsumer_of_none hp hs' hlen
  refine ⟨s, buffer, hlen, hgood, ?_⟩
  have hpos : buffer.length - (0 + 0) ≠ 0 := by
    have := hp.pos
    omega
  simp only [newWriteBuffer, hwith, hstart, nbytes, Option.getD_some]
  rw [hzero]
  exact if_neg hpos

namespace Inv

/-- **The offered buffer is not empty.** -/
theorem newWriteBuffer_ok (hp : Bounded proto bufferSizeHint L good mayRaise)
    (h : Inv bufferSizeHint L good st) : ∃ st', newWriteBuffer proto st =
        (.ok (st'.bufferStart + st'.alreadyWritten), st') ∧ Inv bufferSizeHint L good st' ∧
      st'.consumer ≠ none ∧ st'.bufferStart + st'.alreadyWritten < L := by
  rcases hs : st.consumer with _ | s
  · have hzero := h.idle hs
    obtain ⟨s, buffer, hlen, hgood, hnew⟩ :=
      newWriteBuffer_of_none hp h.sizehint h.buffer hs hzero
    refine ⟨{ st with buffer := some buffer, bufferStart := 0, consumer := some s }, ?_,
      ⟨h.sizehint, ?_, nofun, ?_, nofun, ?_⟩, nofun, ?_⟩
    · rw [hnew, hzero]
    · rintro _ ⟨⟩
      exact hlen
    · rintro _ ⟨⟩
      refine ⟨hgood, ?_⟩
      rw [hzero]
      exact hp.pos
    · exact fun start hstart => absurd hs (h.exported start hstart).1
    · rw [hzero]
      exact hp.pos
  · have hne : st.consumer ≠ none := by rw [hs]; nofun
    exact ⟨st, h.newWriteBuffer_of_some hs, h, hne, (h.consumer s hs).2⟩

theorem getWriteBuffer_ok (hp : Bounded proto bufferSizeHint L good mayRaise)
    (h : Inv bufferSizeHint L good st) : ∃ st', getWriteBuffer proto st =
        (.ok (st'.bufferStart + st'.alreadyWritten), st') ∧ Inv bufferSizeHint L good st' ∧
      st'.consumer ≠ none ∧ st'.bufferStart + st'.alreadyWritten < L ∧
      st'.exportedWriteBufferView = some (st'.bufferStart + st'.alreadyWritten) := by
  unfold getWriteBuffer
  rcases he : st.exportedWriteBufferView with _ | start
  · obtain ⟨st', hnew, hinv, hne, hlt⟩ := h.newWriteBuffer_ok hp
    refine ⟨{ st' with exportedWriteBufferView := some (st'.bufferStart + st'.alreadyWritten) },
      by simp only [hnew],
      ⟨hinv.sizehint, hinv.buffer, hinv.noBuffer, hinv.consumer, hinv.idle, ?_⟩, hne, hlt, rfl⟩
    rintro _ ⟨⟩
    exact ⟨hne, rfl⟩
  · obtain ⟨hne, rfl⟩ := h.exported start he
    obtain ⟨s, hs⟩ := Option.ne_none_iff_exists'.1 hne
    exact ⟨st, rfl, h, hne, (h.consumer s hs).2, he⟩

/-- The caller's bytes stay inside the buffer. -/
theorem write_ok (h : Inv bufferSizeHint L good st) (hfits : start + data.length ≤ L) :
    Inv bufferSizeHint L good (st.write start data) where
  sizehint := h.sizehint
  buffer buffer hb := by
    obtain ⟨old, hold, rfl⟩ := Option.map_eq_some_iff.1 hb
    have hlen := h.buffer old hold
    rw [length_writeAt (by omega), hlen]
  noBuffer hb := h.noBuffer (Option.map_eq_none_iff.1 hb)
  consumer := h.consumer
  idle := h.idle
  exported := h.exported

/-- **What a generator leaves fits the new buffer.** -/
theorem saveRemainderInBuffer_ok (hp : Bounded proto bufferSizeHint L good mayRaise)
    (h : Inv bufferSizeHint L good st) (hs : st.consumer = none) (hlt : remaining.length < L) :
    ∃ st', saveRemainderInBuffer proto st remaining = (.ok (), st') ∧
      Inv bufferSizeHint L good st' := by
  unfold saveRemainderInBuffer
  split_ifs with hnil
  · exact ⟨st, rfl, h⟩
  · have hzero := h.idle hs
    have hsizehint : { st with buffer := none }.sizehint = bufferSizeHint := h.sizehint
    obtain ⟨s, buffer, hlen, hgood, hnew⟩ := newWriteBuffer_of_none hp hsizehint nofun hs hzero
    have hfits : remaining.length ≤ buffer.length - 0 := by omega
    refine ⟨{ st with
        buffer := some (writeAt buffer 0 remaining)
        bufferStart := 0
        consumer := some s
        alreadyWritten := st.alreadyWritten + remaining.length }, ?_,
      ⟨h.sizehint, ?_, nofun, ?_, nofun, ?_⟩⟩
    · simp only [hnew, nbytes, Option.getD_some]
      exact if_pos hfits
    · rintro _ ⟨⟩
      rw [length_writeAt (by omega), hlen]
    · rintro _ ⟨⟩
      refine ⟨hgood, ?_⟩
      show 0 + (st.alreadyWritten + remaining.length) < L
      omega
    · exact fun start hstart => absurd hs (h.exported start hstart).1

/-! ## `next` -/

theorem saveThen_ok (hp : Bounded proto bufferSizeHint L good mayRaise)
    (h : Inv bufferSizeHint L good st) (hs : st.consumer = none) (hlt : remaining.length < L)
    (r : NextResult P ι) : ∃ st', saveThen proto st remaining r = (r, st') ∧
      Inv bufferSizeHint L good st' := by
  obtain ⟨st', hsave, hinv⟩ := h.saveRemainderInBuffer_ok hp hs hlt
  refine ⟨st', ?_, hinv⟩
  simp only [saveThen, hsave]

/-- **Resuming a generator** ends with another exception than `StopIteration` and
    `StreamProtocolParseError` only if the generator raises it. -/
theorem send_ok (hp : Bounded proto bufferSizeHint L good mayRaise)
    (h : Inv bufferSizeHint L good st) (hs : st.consumer = some s) (hzero : st.alreadyWritten = 0)
    (hexported : st.exportedWriteBufferView = none) (hn : 1 ≤ n) (hle : st.bufferStart + n ≤ L) :
    ∃ r st', send proto st s n = (r, st') ∧
      ((∃ message, r = .raised message) ↔ ∃ message,
        (proto.buildPacketFromBuffer.send s (st.buffer.getD []) n).2 = .raised (.other message)) ∧
      Inv bufferSizeHint L good st' := by
  have hgood := (h.consumer s hs).1
  rcases hb : st.buffer with _ | buffer
  · have hnone := h.noBuffer hb
    rw [hs] at hnone
    cases hnone
  · have hbuf := h.buffer buffer hb
    have hlen := hp.generator.length s _ buffer n hgood hbuf hn hle
    have hsat := hp.generator.send s _ buffer n hgood hbuf hn hle
    unfold BufferedStreamDataConsumer.send
    simp only [hb, Option.getD_some, Option.map_some]
    -- the state in which the generator has ended
    have hended : Inv bufferSizeHint L good { st with
        buffer := some (proto.buildPacketFromBuffer.send s buffer n).1, consumer := none } := by
      refine ⟨h.sizehint, ?_, fun _ => rfl, nofun, fun _ => hzero, ?_⟩
      · rintro _ ⟨⟩
        exact hlen
      · rw [hexported]
        exact nofun
    rcases hresumed : (proto.buildPacketFromBuffer.send s buffer n).2 with ⟨s', y⟩ | ⟨p, rem⟩ | e
    · rw [hresumed] at hsat
      refine ⟨_, _, rfl, by simp, h.sizehint, ?_, nofun, ?_, nofun, ?_⟩
      · rintro _ ⟨⟩
        exact hlen
      · rintro _ ⟨⟩
        refine ⟨hsat.2, ?_⟩
        rw [hzero]
        exact hsat.1
      · rw [hexported]
        exact nofun
    · rw [hresumed] at hsat
      obtain ⟨st', hsave, hinv⟩ := hended.saveThen_ok hp rfl hsat (.packet p)
      exact ⟨_, st', hsave, by simp, hinv⟩
    · rw [hresumed] at hsat
      cases e with
      | parse exc =>
        obtain ⟨st', hsave, hinv⟩ := hended.saveThen_ok hp rfl hsat (.parseError exc)
        exact ⟨_, st', hsave, by simp, hinv⟩
      | other message =>
        -- the buffer is dropped
        refine ⟨_, _, rfl, by simp, h.sizehint, nofun, fun _ => rfl, nofun, fun _ => hzero, ?_⟩
        rw [hexported]
        exact nofun

theorem reset (h : Inv bufferSizeHint L good st) {exported : Option ℕ}
    (hexported : ∀ start, exported = some start → st.consumer ≠ none ∧ start = st.bufferStart) :
    Inv bufferSizeHint L good
      { st with alreadyWritten := 0, exportedWriteBufferView := exported } where
  sizehint := h.sizehint
  buffer := h.buffer
  noBuffer := h.noBuffer
  consumer s hs := ⟨(h.consumer s hs).1, by
    have := (h.consumer s hs).2
    show st.bufferStart + 0 < L
    omega⟩
  idle _ := rfl
  exported := hexported

/-- **`next` crashes iff the generator raises.** -/
theorem nextChecked_ok (hp : Bounded proto bufferSizeHint L good mayRaise)
    (h : Inv bufferSizeHint L good st)
    (hle : st.consumer ≠ none → st.bufferStart + st.alreadyWritten + n ≤ L) :
    ∃ r st', nextChecked proto st n = (r, st') ∧
      ((∃ message, r = .raised message) ↔ Raises proto st n) ∧ Inv bufferSizeHint L good st' := by
  unfold nextChecked
  split
  · next hs => exact ⟨_, st, rfl, by simp [Raises, resumed_eq_some, hs], h⟩
  · next s hs =>
    have hle' := hle (by rw [hs]; exact Option.some_ne_none s)
    simp only
    split_ifs with hn
    · refine ⟨_, _, rfl, by simp [Raises, resumed_eq_some, hn], h.reset fun start hstart => ?_⟩
      obtain ⟨hne, heq⟩ := h.exported start hstart
      exact ⟨hne, by omega⟩
    · have hreset : Inv bufferSizeHint L good
          { st with alreadyWritten := 0, exportedWriteBufferView := none } := h.reset nofun
      have hroom : st.bufferStart + (n + st.alreadyWritten) ≤ L := by omega
      obtain ⟨r, st', hsend, hr, hinv⟩ := hreset.send_ok hp hs rfl rfl (by omega) hroom
      refine ⟨r, st', hsend, hr.trans ?_, hinv⟩
      simp only [Raises, resumed_eq_some, hs, Option.some.injEq, exists_eq_left', ne_eq, hn,
        not_false_eq_true, true_and]

theorem next_none_ok (hp : Bounded proto bufferSizeHint L good mayRaise)
    (h : Inv bufferSizeHint L good st) : ∃ r st', next proto st none = (r, st') ∧
      ((∃ message, r = .raised message) ↔ Raises proto st 0) ∧ Inv bufferSizeHint L good st' := by
  refine nextChecked_ok hp h fun hne => ?_
  obtain ⟨s, hs⟩ := Option.ne_none_iff_exists'.1 hne
  exact Nat.le_of_lt (h.consumer s hs).2

/-- A read that fits has been written into the offered buffer. -/
theorem read_ok (hp : Bounded proto bufferSizeHint L good mayRaise)
    (h : Inv bufferSizeHint L good st) (hget : getWriteBuffer proto st = (.ok start, st'))
    (hfits : data.length ≤ st'.nbytes start) :
    Inv bufferSizeHint L good (st'.write start data) ∧ st'.consumer ≠ none ∧
      st'.exportedWriteBufferView = some start ∧
      st'.bufferStart + st'.alreadyWritten + data.length ≤ L := by
  obtain ⟨st₁, hget₁, hinv, hne, hlt, hexported⟩ := h.getWriteBuffer_ok hp
  rw [hget] at hget₁
  cases hget₁
  rw [hinv.nbytes_eq hne] at hfits
  have hroom : st'.bufferStart + st'.alreadyWritten + data.length ≤ L := by omega
  exact ⟨hinv.write_ok hroom, hne, hexported, hroom⟩

theorem next_some_ok (hp : Bounded proto bufferSizeHint L good mayRaise)
    (h : Inv bufferSizeHint L good st) (hget : getWriteBuffer proto st = (.ok start, st'))
    (hfits : data.length ≤ st'.nbytes start) :
    ∃ r st'', next proto (st'.write start data) (some data.length) = (r, st'') ∧
      ((∃ message, r = .raised message) ↔ Raises proto (st'.write start data) data.length) ∧
      Inv bufferSizeHint L good st'' := by
  obtain ⟨hwritten, hne, hexported, hroom⟩ := h.read_ok hp hget hfits
  obtain ⟨-, hstart⟩ := hwritten.exported start hexported
  have hnbytes := hwritten.nbytes_eq hne start
  have hview : (st'.write start data).exportedWriteBufferView = some start := hexported
  have hle : start + data.length ≤ L := by rw [hstart]; exact hroom
  unfold BufferedStreamDataConsumer.next
  simp only [hview, hnbytes]
  rw [if_pos (by omega)]
  exact nextChecked_ok hp hwritten fun _ => hroom

/-- **Step lemma.** -/
theorem step_ok {call : Call} (hp : Bounded proto bufferSizeHint L good mayRaise)
    (h : Inv bufferSizeHint L good st) (hs : step proto st call = some st') :
    Inv bufferSizeHint L good st' := by
  cases call with
  | getWriteBuffer =>
    cases hs
    obtain ⟨st', hget, hinv, -⟩ := h.getWriteBuffer_ok hp
    rw [hget]
    exact hinv
  | next =>
    cases hs
    obtain ⟨r, st', hnext, -, hinv⟩ := h.next_none_ok hp
    rw [hnext]
    exact hinv
  | read data =>
    simp only [step] at hs
    split at hs
    · next hget =>
      split_ifs at hs with hfits
      cases hs
      obtain ⟨r, st', hnext, -, hinv⟩ := h.next_some_ok hp hget hfits.2
      rw [hnext]
      exact hinv
    · cases hs

/-- **The next call crashes iff it resumes the generator and this raises.** -/
theorem fine_iff (hp : Bounded proto bufferSizeHint L good mayRaise)
    (h : Inv bufferSizeHint L good st) :
    Fine proto st ↔ ∀ st' n, Announces proto st st' n → ¬ Raises proto st' n := by
  constructor
  · rintro hfine st' n hcall hraises
    cases hcall with
    | taking =>
      obtain ⟨r, st', hnext, hr, -⟩ := h.next_none_ok hp
      obtain ⟨message, rfl⟩ := hr.2 hraises
      exact hfine.takes message (by rw [hnext])
    | reading hget hpos hfits =>
      obtain ⟨r, st'', hnext, hr, -⟩ := h.next_some_ok hp hget hfits
      obtain ⟨message, rfl⟩ := hr.2 hraises
      exact hfine.reads _ _ _ hget hpos hfits message (by rw [hnext])
  · intro hquiet
    refine ⟨?_, fun message hraised => ?_, fun start st' data hget hpos hfits message hraised => ?_⟩
    · obtain ⟨st', hget, hinv, hne, hlt, -⟩ := h.getWriteBuffer_ok hp
      refine ⟨_, st', hget, ?_⟩
      rw [hinv.nbytes_eq hne]
      omega
    · obtain ⟨r, st', hnext, hr, -⟩ := h.next_none_ok hp
      rw [hnext] at hraised
      exact hquiet _ _ .taking (hr.1 ⟨message, hraised⟩)
    · obtain ⟨r, st'', hnext, hr, -⟩ := h.next_some_ok hp hget hfits
      rw [hnext] at hraised
      exact hquiet _ _ (.reading hget hpos hfits) (hr.1 ⟨message, hraised⟩)

/-- The bytes that are announced are in the buffer. -/
theorem announces (hp : Bounded proto bufferSizeHint L good mayRaise)
    (h : Inv bufferSizeHint L good st) (hcall : Announces proto st st' n) :
    Inv bufferSizeHint L good st' ∧
      (st'.consumer ≠ none → st'.bufferStart + st'.alreadyWritten + n ≤ L) := by
  cases hcall with
  | taking =>
    refine ⟨h, fun hne => ?_⟩
    obtain ⟨s, hs⟩ := Option.ne_none_iff_exists'.1 hne
    exact Nat.le_of_lt (h.consumer s hs).2
  | reading hget hpos hfits =>
    obtain ⟨hwritten, -, -, hroom⟩ := h.read_ok hp hget hfits
    exact ⟨hwritten, fun _ => hroom⟩

/-- The generator is resumed in a state and with a buffer that fit each other. -/
theorem resumes (hp : Bounded proto bufferSizeHint L good mayRaise)
    (h : Inv bufferSizeHint L good st) (hcall : Announces proto st st' n)
    (hs : st'.consumer = some s) : good s st'.bufferStart ∧ (st'.buffer.getD []).length = L ∧
      st'.bufferStart + (n + st'.alreadyWritten) ≤ L := by
  obtain ⟨hinv, hle⟩ := h.announces hp hcall
  have hle' := hle (by rw [hs]; exact Option.some_ne_none s)
  rcases hb : st'.buffer with _ | buffer
  · rw [hinv.noBuffer hb] at hs
    cases hs
  · exact ⟨(hinv.consumer s hs).1, hinv.buffer buffer hb, by omega⟩

end Inv

/-- **Run lemma**: the invariant holds between any two calls. -/
theorem inv_run (hp : Bounded proto bufferSizeHint L good mayRaise) {calls : List Call}
    (hrun : Trans.run (step proto) (init bufferSizeHint) calls = some st) :
    Inv bufferSizeHint L good st :=
  Trans.run_inv (fun _ _ _ h hs => h.step_ok hp hs) Inv.init hrun

/-- **A protocol whose generators stay inside the buffer and raise nothing of their own never makes
    the consumer crash.** -/
theorem neverCrashes_of_bounded (hp : Bounded proto bufferSizeHint L good False) :
    NeverCrashes proto bufferSizeHint := by
  intro calls st hrun
  have hinv := inv_run hp hrun
  refine (hinv.fine_iff hp).2 fun st' n hcall => ?_
  rintro ⟨message, hraised⟩
  obtain ⟨s, hs, hzero, hsend⟩ := (resumed_eq_some proto st').1 hraised
  obtain ⟨hgood, hbuf, hle⟩ := hinv.resumes hp hcall hs
  have hsat := hp.generator.send s _ _ _ hgood hbuf (Nat.one_le_iff_ne_zero.2 hzero) hle
  rw [hsend] at hsat
  exact hsat

end

end BufferedStreamDataConsumer

end EasyNetwork
