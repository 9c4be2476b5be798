/-
  What the stream data consumers deliver.

  `Implements`: the generators of a protocol read the frames of a framer, as long as the received
  bytes are `ok` (no frame exceeds a limit).  Then, wherever the stream is cut into reads, a
  consumer delivers the frames of the stream and keeps what is left
  (`StreamDataConsumer.reads_iff`, `BufferedStreamDataConsumer.reads_spec`); the offered buffer is never
  empty and a read that fits in it can be given (`BufferedStreamDataConsumer.exists_reads`).
-/
import EasyNetwork.Lib.Framing
import EasyNetwork.Stream

namespace EasyNetwork

open Coroutine Framing

variable {σ P ι ρ : Type}

/-- The result of `next` for a verdict with the data that is left. -/
def Verdict.result (v : Verdict P ι) (remainder : Bytes) : NextResult P ι :=
  match v with
  | .ok packet => .packet packet
  | .error cause => .parseError ⟨cause, remainder⟩

@[simp] theorem Verdict.verdict?_result (v : Verdict P ι) (r : Bytes) :
    (v.result r).verdict? = some v := by cases v <;> rfl

/-! ## `StreamDataConsumer` -/

/-- The generator `G` reads the frames of `F` and reports each of them, as long as the received
    bytes are `ok`.  `inv s b`: the suspended state `s` has received `b`. -/
structure Implements (G : Generator σ Bytes Unit (P × Bytes) (ProtocolError ι)) (F : Framer UInt8 ρ)
    (report : ρ → Verdict P ι) (ok : Bytes → Prop) (inv : σ → Bytes → Prop) : Prop where
  next : ∃ s, G.next = .yielded s () ∧ inv s []
  norm : ∀ {s b}, inv s b → inv s (F.norm b)
  send_none : ∀ {s b c}, inv s b → c ≠ [] → ok (b ++ c) → F.dec b = none → F.dec (b ++ c) = none →
    ∃ s', G.send s c = .yielded s' () ∧ inv s' (b ++ c)
  send_some : ∀ {s b c o r}, inv s b → c ≠ [] → ok (b ++ c) → F.dec b = none →
    F.dec (b ++ c) = some (o, r) → G.send s c = (report o).ended r

namespace StreamDataConsumer
variable {proto : StreamProtocol σ P ι} {F : Framer UInt8 ρ} {report : ρ → Verdict P ι}
  {ok : Bytes → Prop} {inv : σ → Bytes → Prop} {st st' : StreamDataConsumer σ} {b d : Bytes}

/-- The consumer's generator has received `b` and bytes that the framer ignores. -/
def Holds (F : Framer UInt8 ρ) (inv : σ → Bytes → Prop) (st : StreamDataConsumer σ) (b : Bytes) :
    Prop :=
  (st.consumer = none ∧ b = []) ∨
    ∃ s received, st.consumer = some s ∧ inv s received ∧ received ≠ [] ∧ F.norm received = b

/-- Between two reads, `b` has been received since the last frame. -/
structure Rep (F : Framer UInt8 ρ) (inv : σ → Bytes → Prop) (st : StreamDataConsumer σ)
    (b : Bytes) : Prop where
  buffer : st.buffer = []
  dec : F.dec b = none
  holds : Holds F inv st b

theorem rep_init (F : Framer UInt8 ρ) (inv : σ → Bytes → Prop) : Rep F inv init [] :=
  ⟨rfl, F.dec_nil, Or.inl ⟨rfl, rfl⟩⟩

section
variable (h : Implements proto.buildPacketFromChunks F report ok inv)
include h

/-- `next` on data in a state whose generator has received `b` sends the data. -/
theorem next_of_holds {chunk : Option Bytes} (hb : Holds F inv st b)
    (hd : st.buffer ++ chunk.getD [] = d) (hne : d ≠ []) :
    ∃ s, inv s b ∧ next proto st chunk = send proto s d := by
  unfold next
  rw [hd]
  rcases hb with ⟨hc, rfl⟩ | ⟨s, received, hc, hi, -, rfl⟩
  · obtain ⟨s, hs, hi⟩ := h.next
    exact ⟨s, hi, by simp only [hne, hc, hs, if_false]⟩
  · exact ⟨s, h.norm hi, by simp only [hne, hc, if_false]⟩

/-- **Step lemma.**  `next` on data that completes no frame waits for more. -/
theorem next_none {chunk : Option Bytes} (hb : Holds F inv st b) (hn : F.dec b = none)
    (hd : st.buffer ++ chunk.getD [] = d) (hne : d ≠ []) (hok : ok (b ++ d))
    (hdec : F.dec (b ++ d) = none) :
    ∃ s, next proto st chunk = (.stopIteration, ⟨[], some s⟩) ∧ inv s (b ++ d) := by
  obtain ⟨s, hi, hs⟩ := next_of_holds h hb hd hne
  obtain ⟨s', h1, h2⟩ := h.send_none hi hne hok hn hdec
  exact ⟨s', by rw [hs, send, h1], h2⟩

/-- **Step lemma.**  `next` on data that completes a frame reports it. -/
theorem next_some {chunk : Option Bytes} {o : ρ} {r : Bytes} (hb : Holds F inv st b)
    (hn : F.dec b = none) (hd : st.buffer ++ chunk.getD [] = d) (hne : d ≠ []) (hok : ok (b ++ d))
    (hdec : F.dec (b ++ d) = some (o, r)) :
    next proto st chunk = ((report o).result r, ⟨r, none⟩) := by
  obtain ⟨s, hi, hs⟩ := next_of_holds h hb hd hne
  rw [hs, send, h.send_some hi hne hok hn hdec]
  cases report o <;> rfl

variable (hok : F.Closed ok)
include hok

/-- `next(None)` until `StopIteration` delivers the frames of the buffered data. -/
theorem drained_of_buffer (d : Bytes) (hd : ok d) :
    ∃ st', Drained proto ⟨d, none⟩ ((F.outs d).map report) st' ∧ Rep F inv st' (F.rest d) := by
  induction hn : d.length using Nat.strongRecOn generalizing d with
  | ind n ih =>
    by_cases hne : d = []
    · subst hne
      exact ⟨_, by rw [F.outs_nil]; exact .stop rfl, by rw [F.rest_nil]; exact rep_init F inv⟩
    have hd' : (⟨d, none⟩ : StreamDataConsumer σ).buffer ++ (none : Option Bytes).getD [] = d := by
      simp
    have hb : Holds F inv (⟨d, none⟩ : StreamDataConsumer σ) [] := Or.inl ⟨rfl, rfl⟩
    rcases hdec : F.dec d with _ | ⟨o, r⟩
    · obtain ⟨s, h1, h2⟩ := next_none h hb F.dec_nil hd' hne hd hdec
      refine ⟨⟨[], some s⟩, by rw [Framer.outs_none hdec]; exact .stop h1, ?_⟩
      rw [Framer.rest_none hdec]
      exact ⟨rfl, by rw [F.dec_norm, hdec], Or.inr ⟨s, d, rfl, h2, hne, rfl⟩⟩
    · have h1 := next_some h hb F.dec_nil hd' hne hd hdec
      obtain ⟨st', h2, h3⟩ := ih _ (hn ▸ F.dec_lt hdec) r (hok.dec hd hdec) rfl
      rw [Framer.outs_some hdec, Framer.rest_some hdec]
      exact ⟨st', .more h1 (Verdict.verdict?_result _ _) h2, h3⟩

/-- **Run lemma.**  Every cutting into reads delivers the frames of the whole. -/
theorem reads_of_rep : ∀ (cs : List Bytes) (st : StreamDataConsumer σ) (b : Bytes), Rep F inv st b →
    (∀ c ∈ cs, c ≠ []) → ok (b ++ cs.flatten) →
    ∃ st', Reads proto st cs ((F.outs (b ++ cs.flatten)).map report) st' ∧
      Rep F inv st' (F.rest (b ++ cs.flatten))
  | [], st, b, hr, _, _ => by
    rw [List.flatten_nil, List.append_nil, Framer.outs_none hr.dec, Framer.rest_none hr.dec]
    refine ⟨st, .nil, hr.buffer, by rw [F.dec_norm, hr.dec], ?_⟩
    rcases hr.holds with ⟨hc, rfl⟩ | ⟨s, received, hc, hi, hne, rfl⟩
    · exact Or.inl ⟨hc, F.norm_nil⟩
    · exact Or.inr ⟨s, received, hc, hi, hne, (Framer.norm_norm _).symm⟩
  | c :: cs, st, b, hr, hne, hk => by
    have hc := hne c List.mem_cons_self
    rw [List.flatten_cons, ← List.append_assoc] at hk ⊢
    have hkc : ok (b ++ c) := hok.of_append hk
    have hd : st.buffer ++ (some c).getD [] = c := by rw [hr.buffer]; rfl
    have hk' := hok.rest (b ++ c) cs.flatten hk
    rw [Framer.outs_append (b ++ c), Framer.rest_append (b ++ c), List.map_append]
    rcases hdec : F.dec (b ++ c) with _ | ⟨o, r⟩
    · obtain ⟨s, h1, h2⟩ := next_none h hr.holds hr.dec hd hc hkc hdec
      rw [Framer.outs_none hdec, Framer.rest_none hdec] at *
      have hr' : Rep F inv ⟨[], some s⟩ (F.norm (b ++ c)) :=
        ⟨rfl, by rw [F.dec_norm, hdec], Or.inr ⟨s, b ++ c, rfl, h2, by simp [hc], rfl⟩⟩
      obtain ⟨st', h3, h4⟩ :=
        reads_of_rep cs _ _ hr' (fun x hx => hne x (List.mem_cons_of_mem _ hx)) hk'
      exact ⟨st', .stop h1 (.stop rfl) h3, h4⟩
    · have h1 := next_some h hr.holds hr.dec hd hc hkc hdec
      obtain ⟨st₁, h2, h3⟩ := drained_of_buffer h hok r (hok.dec hkc hdec)
      rw [Framer.rest_some hdec] at hk' ⊢
      rw [Framer.outs_some hdec]
      obtain ⟨st', h4, h5⟩ :=
        reads_of_rep cs _ _ h3 (fun x hx => hne x (List.mem_cons_of_mem _ hx)) hk'
      exact ⟨st', .more h1 (Verdict.verdict?_result _ _) h2 h4, h5⟩

end

/-! A run is determined by its reads. -/

theorem Drained.unique {vs vs' : List (Verdict P ι)} {st₁ st₂ : StreamDataConsumer σ}
    (h1 : Drained proto st vs st₁) (h2 : Drained proto st vs' st₂) : vs = vs' ∧ st₁ = st₂ := by
  induction h1 generalizing vs' st₂ with
  | stop hn => cases h2 with
    | stop hn' => rw [hn] at hn'; cases hn'; exact ⟨rfl, rfl⟩
    | more hn' hv => rw [hn] at hn'; cases hn'; cases hv
  | more hn hv _ ih => cases h2 with
    | stop hn' => rw [hn] at hn'; cases hn'; cases hv
    | more hn' hv' hd =>
      rw [hn] at hn'; cases hn'; rw [hv] at hv'; cases hv'
      obtain ⟨rfl, rfl⟩ := ih hd
      exact ⟨rfl, rfl⟩

theorem Reads.unique {cs : List Bytes} {vs vs' : List (Verdict P ι)}
    {st₁ st₂ : StreamDataConsumer σ} (h1 : Reads proto st cs vs st₁)
    (h2 : Reads proto st cs vs' st₂) : vs = vs' ∧ st₁ = st₂ := by
  induction h1 generalizing vs' st₂ with
  | nil => cases h2; exact ⟨rfl, rfl⟩
  | stop hn hd _ ih => cases h2 with
    | stop hn' hd' hr =>
      rw [hn] at hn'; cases hn'
      obtain ⟨rfl, rfl⟩ := hd.unique hd'
      obtain ⟨rfl, rfl⟩ := ih hr
      exact ⟨rfl, rfl⟩
    | more hn' hv => rw [hn] at hn'; cases hn'; cases hv
  | more hn hv hd _ ih => cases h2 with
    | stop hn' => rw [hn] at hn'; cases hn'; cases hv
    | more hn' hv' hd' hr =>
      rw [hn] at hn'; cases hn'; rw [hv] at hv'; cases hv'
      obtain ⟨rfl, rfl⟩ := hd.unique hd'
      obtain ⟨rfl, rfl⟩ := ih hr
      exact ⟨rfl, rfl⟩

theorem reads_cons_of_stop {c : Bytes} {cs : List Bytes} {vs ds : List (Verdict P ι)}
    {st₁ st₂ : StreamDataConsumer σ} (hn : next proto st (some c) = (.stopIteration, st₁))
    (hd : Drained proto st₁ ds st₂) : Reads proto st (c :: cs) vs st' ↔
      ∃ ws, vs = ds ++ ws ∧ Reads proto st₂ cs ws st' := by
  constructor
  · intro h
    cases h with
    | stop hn' hd' hr =>
      rw [hn] at hn'
      cases hn'
      obtain ⟨rfl, rfl⟩ := hd.unique hd'
      exact ⟨_, rfl, hr⟩
    | more hn' hv =>
      rw [hn] at hn'
      cases hn'
      cases hv
  · rintro ⟨ws, rfl, hr⟩
    exact .stop hn hd hr

theorem reads_cons_of_more {c : Bytes} {cs : List Bytes} {r : NextResult P ι} {v : Verdict P ι}
    {vs ds : List (Verdict P ι)} {st₁ st₂ : StreamDataConsumer σ}
    (hn : next proto st (some c) = (r, st₁)) (hv : r.verdict? = some v)
    (hd : Drained proto st₁ ds st₂) : Reads proto st (c :: cs) vs st' ↔
      ∃ ws, vs = v :: ds ++ ws ∧ Reads proto st₂ cs ws st' := by
  constructor
  · intro h
    cases h with
    | stop hn' =>
      rw [hn] at hn'
      cases hn'
      cases hv
    | more hn' hv' hd' hr =>
      rw [hn] at hn'
      cases hn'
      rw [hv] at hv'
      cases hv'
      obtain ⟨rfl, rfl⟩ := hd.unique hd'
      exact ⟨_, rfl, hr⟩
  · rintro ⟨ws, rfl, hr⟩
    exact .more hn hv hd hr

/-- **The consumer delivers the frames**, and can do nothing else. -/
theorem reads_iff (h : Implements proto.buildPacketFromChunks F report ok inv) (hok : F.Closed ok)
    {cs : List Bytes} (hr : Rep F inv st b) (hne : ∀ c ∈ cs, c ≠ []) (hk : ok (b ++ cs.flatten)) :
    ∃ st', Rep F inv st' (F.rest (b ++ cs.flatten)) ∧ ∀ vs st'', Reads proto st cs vs st'' ↔
      vs = (F.outs (b ++ cs.flatten)).map report ∧ st'' = st' := by
  obtain ⟨st', h1, h2⟩ := reads_of_rep h hok cs st b hr hne hk
  refine ⟨st', h2, fun vs st'' => ⟨fun h3 => h3.unique h1, ?_⟩⟩
  rintro ⟨rfl, rfl⟩; exact h1

end StreamDataConsumer

/-! ## `BufferedStreamDataConsumer` -/

/-- `Implements` for generators that share a buffer of length `L`.  `inv s n buf b`: the suspended state
    `s` has received `b` in the buffer `buf` and asks for a read at index `n`. -/
structure BufferImplements (G : BufferGenerator σ UInt8 (P × Bytes) (ProtocolError ι))
    (F : Framer UInt8 ρ) (report : ρ → Verdict P ι) (ok : Bytes → Prop) (L : ℕ)
    (inv : σ → ℕ → Bytes → Bytes → Prop) : Prop where
  next : ∀ {buf : Bytes}, buf.length = L → ∃ s y, G.next buf = .yielded s y ∧ y.getD 0 = 0 ∧
    inv s 0 buf []
  norm : ∀ {s n buf b}, inv s n buf b → inv s n buf (F.norm b)
  lt : ∀ {s n buf b}, inv s n buf b → n < L ∧ buf.length = L
  send_none : ∀ {s n buf b c}, inv s n buf b → c ≠ [] → n + c.length ≤ L → ok (b ++ c) →
    F.dec b = none → F.dec (b ++ c) = none →
    ∃ s' y buf', G.send s (writeAt buf n c) c.length = (buf', .yielded s' y) ∧
      inv s' (y.getD 0) buf' (b ++ c)
  send_some : ∀ {s n buf b c o r}, inv s n buf b → c ≠ [] → n + c.length ≤ L → ok (b ++ c) →
    F.dec b = none → F.dec (b ++ c) = some (o, r) →
    ∃ buf', G.send s (writeAt buf n c) c.length = (buf', (report o).ended r) ∧ buf'.length = L ∧
      r.length ≤ L

namespace BufferedStreamDataConsumer
variable {proto : BufferedStreamProtocol σ P ι} {F : Framer UInt8 ρ} {report : ρ → Verdict P ι}
  {ok : Bytes → Prop} {L : ℕ} {inv : σ → ℕ → Bytes → Bytes → Prop}
  {st st' : BufferedStreamDataConsumer σ} {b c d : Bytes}

/-- No generator is running, and there is a buffer of the right length or none. -/
inductive Idle (L : ℕ) : BufferedStreamDataConsumer σ → Prop
  | mk {buffer start hint} : (∀ buf, buffer = some buf → buf.length = L) →
      Idle L ⟨buffer, none, start, 0, hint, none⟩

/-- A generator is suspended that has received `b`. -/
inductive Waiting (inv : σ → ℕ → Bytes → Bytes → Prop) :
    BufferedStreamDataConsumer σ → Bytes → Prop
  | mk {s buf view start hint received} : inv s start buf received →
      (∀ v, view = some v → v = start) → Waiting inv ⟨some buf, view, start, 0, hint, some s⟩ received

/-- Between two reads, `b` has been received since the last frame. -/
structure Rep (F : Framer UInt8 ρ) (L : ℕ) (inv : σ → ℕ → Bytes → Bytes → Prop)
    (st : BufferedStreamDataConsumer σ) (b : Bytes) : Prop where
  dec : F.dec b = none
  holds : (Idle L st ∧ b = []) ∨ Waiting inv st b

/-- After a frame, `data` has been copied into the buffer of a new generator. -/
inductive Saved (L : ℕ) (inv : σ → ℕ → Bytes → Bytes → Prop) :
    BufferedStreamDataConsumer σ → Bytes → Prop
  | nil {idle} : Idle L idle → Saved L inv idle []
  | cons {s buf data} (hint) : data ≠ [] → inv s 0 buf [] → data.length ≤ L →
      Saved L inv ⟨some (writeAt buf 0 data), none, 0, data.length, hint, some s⟩ data

theorem rep_init (F : Framer UInt8 ρ) (hint : ℕ) : Rep F L inv (init hint) [] :=
  ⟨F.dec_nil, Or.inl ⟨.mk (by rintro _ ⟨⟩), rfl⟩⟩

theorem next_of_rep (hr : Rep F L inv st b) : next proto st none = (.stopIteration, st) := by
  rcases hr.holds with ⟨⟨-⟩, -⟩ | ⟨-, -⟩ <;> simp [next, nextChecked]

section
variable (h : BufferImplements proto.buildPacketFromBuffer F report ok L inv)
  (hL : ∀ hint, (proto.createBuffer hint).length = L)
include h

section
variable (hpos : 0 < L)
include hL hpos

/-- A new generator is started on a buffer of length `L`. -/
theorem newWriteBuffer_of_idle (buffer : Option Bytes) (view : Option ℕ) (start hint : ℕ)
    (hb : ∀ buf, buffer = some buf → buf.length = L) :
    ∃ s buf, newWriteBuffer proto ⟨buffer, view, start, 0, hint, none⟩ =
      (.ok 0, ⟨some buf, view, 0, 0, hint, some s⟩) ∧ inv s 0 buf [] := by
  have hbuf : ∃ buf, withBuffer proto ⟨buffer, view, start, 0, hint, none⟩ =
      .ok (buf, ⟨some buf, view, start, 0, hint, none⟩) ∧ buf.length = L := by
    cases buffer with
    | none =>
      have hne : proto.createBuffer hint ≠ [] := by rw [← List.length_pos_iff, hL]; exact hpos
      exact ⟨_, by simp only [withBuffer, Option.isSome_none, hne, if_false]; rfl, hL _⟩
    | some buf => exact ⟨buf, rfl, hb buf rfl⟩
  obtain ⟨buf, h1, h2⟩ := hbuf
  obtain ⟨s, y, h3, h4, h5⟩ := h.next h2
  have hn : buf.length ≠ 0 := by omega
  refine ⟨s, buf, ?_, h5⟩
  simp only [newWriteBuffer, h1, withConsumer, h3, h4, Nat.add_zero, nbytes, Option.getD_some,
    Nat.sub_zero, hn, if_false]

/-- **The offered buffer** is the free part after what has been received; it is not empty. -/
theorem getWriteBuffer_of_rep (hr : Rep F L inv st b) :
    ∃ s start buf hint, getWriteBuffer proto st =
      (.ok start, ⟨some buf, some start, start, 0, hint, some s⟩) ∧ inv s start buf b := by
  rcases hr.holds with ⟨⟨hb⟩, rfl⟩ | ⟨hi, hv⟩
  · next buffer start hint =>
    obtain ⟨s, buf, h1, h2⟩ := newWriteBuffer_of_idle h hL hpos buffer none start hint hb
    exact ⟨s, 0, buf, hint, by simp only [getWriteBuffer, h1], h2⟩
  · next s buf view start hint =>
    refine ⟨s, start, buf, hint, ?_, hi⟩
    cases view with
    | some v => obtain rfl := hv v rfl; rfl
    | none =>
      obtain ⟨hlt, hl⟩ := h.lt hi
      have hn : buf.length - start ≠ 0 := by omega
      simp only [getWriteBuffer, newWriteBuffer, withBuffer, withConsumer, Nat.add_zero, nbytes,
        Option.getD_some, hn, if_false]

/-- What a packet or an error leaves is saved in a new buffer. -/
theorem saveThen_of_idle {buf : Bytes} {start hint : ℕ} (hb : buf.length = L) (hl : d.length ≤ L)
    (r : NextResult P ι) :
    ∃ st', saveThen proto ⟨some buf, none, start, 0, hint, none⟩ d r = (r, st') ∧
      Saved L inv st' d := by
  by_cases hd : d = []
  · subst hd
    have hi : Idle L (⟨some buf, none, start, 0, hint, none⟩ : BufferedStreamDataConsumer σ) :=
      .mk (by rintro _ ⟨⟩; exact hb)
    exact ⟨_, by simp only [saveThen, saveRemainderInBuffer, if_true], .nil hi⟩
  · obtain ⟨s, buf, h1, h2⟩ :=
      newWriteBuffer_of_idle h hL hpos none none start hint (by rintro _ ⟨⟩)
    have hlen := (h.lt h2).2
    refine ⟨_, ?_, .cons hint hd h2 hl⟩
    simp only [saveThen, saveRemainderInBuffer, hd, if_false, h1, nbytes, Option.getD_some, hlen,
      Nat.sub_zero, hl, if_true, write, Option.map_some, Nat.zero_add]

/-- **Step lemma.**  A send that completes a frame reports it. -/
theorem send_some {s : σ} {n : ℕ} {buf r : Bytes} {o : ρ} (start hint : ℕ) (hi : inv s n buf b)
    (hc : c ≠ []) (hl : n + c.length ≤ L) (hok : ok (b ++ c)) (hn : F.dec b = none)
    (hdec : F.dec (b ++ c) = some (o, r)) :
    ∃ st', send proto ⟨some (writeAt buf n c), none, start, 0, hint, some s⟩ s c.length =
      ((report o).result r, st') ∧ Saved L inv st' r := by
  obtain ⟨buf', h1, h2, h3⟩ := h.send_some hi hc hl hok hn hdec
  unfold send
  simp only [Option.getD_some, h1, Option.map_some]
  cases report o with
  | ok p => exact saveThen_of_idle h hL hpos h2 h3 _
  | error e => exact saveThen_of_idle h hL hpos h2 h3 _

end

/-- **Step lemma.**  A send that completes no frame waits for more. -/
theorem send_none {s : σ} {n : ℕ} {buf : Bytes} (start hint : ℕ) (hi : inv s n buf b)
    (hc : c ≠ []) (hl : n + c.length ≤ L) (hok : ok (b ++ c)) (hn : F.dec b = none)
    (hdec : F.dec (b ++ c) = none) :
    ∃ st', send proto ⟨some (writeAt buf n c), none, start, 0, hint, some s⟩ s c.length =
      (.stopIteration, st') ∧ Rep F L inv st' (F.norm (b ++ c)) := by
  obtain ⟨s', y, buf', h1, h2⟩ := h.send_none hi hc hl hok hn hdec
  refine ⟨⟨some buf', none, y.getD 0, 0, hint, some s'⟩, ?_, by rw [F.dec_norm, hdec],
    Or.inr (.mk (h.norm h2) (by rintro _ ⟨⟩))⟩
  simp only [send, Option.getD_some, h1, Option.map_some]

variable (hpos : 0 < L) (hok : F.Closed ok)
include hL hpos hok

/-- `next(None)` until `StopIteration` delivers the frames of the saved data. -/
theorem drained_of_saved (st : BufferedStreamDataConsumer σ) (d : Bytes) (hs : Saved L inv st d)
    (hd : ok d) :
    ∃ st', Drained proto st ((F.outs d).map report) st' ∧ Rep F L inv st' (F.rest d) := by
  induction hn : d.length using Nat.strongRecOn generalizing st d with
  | ind n ih =>
    cases hs with
    | nil hi =>
      have hr : Rep F L inv st [] := ⟨F.dec_nil, Or.inl ⟨hi, rfl⟩⟩
      rw [F.outs_nil, F.rest_nil]
      exact ⟨st, .stop (next_of_rep hr), hr⟩
    | @cons s buf _ hint hne hi hl =>
      have hnext : next proto ⟨some (writeAt buf 0 d), none, 0, d.length, hint, some s⟩ none =
          send proto ⟨some (writeAt buf 0 d), none, 0, 0, hint, some s⟩ s d.length := by
        simp only [next, nextChecked, Nat.zero_add, List.length_eq_zero_iff, hne, if_false]
      have hl' : 0 + d.length ≤ L := by omega
      rcases hdec : F.dec d with _ | ⟨o, r⟩
      · obtain ⟨st', h1, h2⟩ :=
          send_none h 0 hint hi hne hl' hd F.dec_nil hdec
        rw [Framer.outs_none hdec, Framer.rest_none hdec]
        exact ⟨st', .stop (hnext.trans h1), h2⟩
      · obtain ⟨st₁, h1, h2⟩ :=
          send_some h hL hpos 0 hint hi hne hl' hd F.dec_nil hdec
        obtain ⟨st', h3, h4⟩ := ih _ (hn ▸ F.dec_lt hdec) st₁ r h2 (hok.dec hd hdec) rfl
        rw [Framer.outs_some hdec, Framer.rest_some hdec]
        exact ⟨st', .more (hnext.trans h1) (Verdict.verdict?_result _ _) h3, h4⟩

/-- **A read** that fits in the offered buffer delivers the frames that it completes. -/
theorem read_of_rep (hr : Rep F L inv st b) (hc : c ≠ []) (hk : ok (b ++ c)) :
    ∃ start st₁, getWriteBuffer proto st = (.ok start, st₁) ∧ 0 < st₁.nbytes start ∧
      (c.length ≤ st₁.nbytes start →
        ∃ st', Reads proto st [c] ((F.outs (b ++ c)).map report) st' ∧
          Rep F L inv st' (F.rest (b ++ c))) := by
  obtain ⟨s, start, buf, hint, h1, h2⟩ := getWriteBuffer_of_rep h hL hpos hr
  obtain ⟨hlt, hlen⟩ := h.lt h2
  refine ⟨start, _, h1, by simp only [nbytes, Option.getD_some]; omega, fun hfit => ?_⟩
  have hl : start + c.length ≤ L := by simp only [nbytes, Option.getD_some] at hfit; omega
  -- announcing the read resumes the generator
  have hrec : ∀ {r st'}, send proto ⟨some (writeAt buf start c), none, start, 0, hint, some s⟩ s
      c.length = (r, st') → Received proto st c r st' := by
    intro r st' hs
    refine ⟨start, _, h1, hfit, ?_⟩
    have hw : (writeAt buf start c).length = buf.length := length_writeAt (by omega)
    have hn : c.length ≤ buf.length - start := by omega
    simp only [write, Option.map_some, next, nbytes, Option.getD_some, hw, hn, if_true,
      nextChecked, Nat.add_zero, List.length_eq_zero_iff, hc, if_false, hs]
  rcases hdec : F.dec (b ++ c) with _ | ⟨o, r⟩
  · obtain ⟨st', h3, h4⟩ := send_none h start hint h2 hc hl hk hr.dec hdec
    rw [Framer.outs_none hdec, Framer.rest_none hdec]
    exact ⟨st', .stop (hrec h3) (.stop (next_of_rep h4)) .nil, h4⟩
  · obtain ⟨st₁, h3, h4⟩ :=
      send_some h hL hpos start hint h2 hc hl hk hr.dec hdec
    obtain ⟨st', h5, h6⟩ := drained_of_saved h hL hpos hok st₁ r h4 (hok.dec hk hdec)
    rw [Framer.outs_some hdec, Framer.rest_some hdec]
    have hreads := Reads.more (hrec h3) (Verdict.verdict?_result _ _) h5 .nil
    rw [List.append_nil] at hreads
    exact ⟨st', hreads, h6⟩

end

/-! A run is determined by its reads. -/

theorem Drained.unique {vs vs' : List (Verdict P ι)} {st₁ st₂ : BufferedStreamDataConsumer σ}
    (h1 : Drained proto st vs st₁) (h2 : Drained proto st vs' st₂) : vs = vs' ∧ st₁ = st₂ := by
  induction h1 generalizing vs' st₂ with
  | stop hn => cases h2 with
    | stop hn' => rw [hn] at hn'; cases hn'; exact ⟨rfl, rfl⟩
    | more hn' hv => rw [hn] at hn'; cases hn'; cases hv
  | more hn hv _ ih => cases h2 with
    | stop hn' => rw [hn] at hn'; cases hn'; cases hv
    | more hn' hv' hd =>
      rw [hn] at hn'; cases hn'; rw [hv] at hv'; cases hv'
      obtain ⟨rfl, rfl⟩ := ih hd
      exact ⟨rfl, rfl⟩

theorem Received.unique {r r' : NextResult P ι} {st₁ st₂ : BufferedStreamDataConsumer σ}
    (h1 : Received proto st c r st₁) (h2 : Received proto st c r' st₂) : r = r' ∧ st₁ = st₂ := by
  obtain ⟨_, _, hg, _, hn⟩ := h1
  obtain ⟨_, _, hg', _, hn'⟩ := h2
  rw [hg] at hg'; cases hg'; rw [hn] at hn'; cases hn'; exact ⟨rfl, rfl⟩

theorem Reads.unique {cs : List Bytes} {vs vs' : List (Verdict P ι)}
    {st₁ st₂ : BufferedStreamDataConsumer σ} (h1 : Reads proto st cs vs st₁)
    (h2 : Reads proto st cs vs' st₂) : vs = vs' ∧ st₁ = st₂ := by
  induction h1 generalizing vs' st₂ with
  | nil => cases h2; exact ⟨rfl, rfl⟩
  | stop hn hd _ ih => cases h2 with
    | stop hn' hd' hr =>
      obtain ⟨-, rfl⟩ := hn.unique hn'
      obtain ⟨rfl, rfl⟩ := hd.unique hd'
      obtain ⟨rfl, rfl⟩ := ih hr
      exact ⟨rfl, rfl⟩
    | more hn' hv => obtain ⟨rfl, -⟩ := hn.unique hn'; cases hv
  | more hn hv hd _ ih => cases h2 with
    | stop hn' => obtain ⟨rfl, -⟩ := hn.unique hn'; cases hv
    | more hn' hv' hd' hr =>
      obtain ⟨rfl, rfl⟩ := hn.unique hn'
      rw [hv] at hv'; cases hv'
      obtain ⟨rfl, rfl⟩ := hd.unique hd'
      obtain ⟨rfl, rfl⟩ := ih hr
      exact ⟨rfl, rfl⟩

/-- A run begins with the run of its first read. -/
theorem Reads.cons_inv {cs : List Bytes} {vs : List (Verdict P ι)}
    (h : Reads proto st (c :: cs) vs st') : ∃ vs₁ vs₂ st₁, Reads proto st [c] vs₁ st₁ ∧
      Reads proto st₁ cs vs₂ st' ∧ vs = vs₁ ++ vs₂ := by
  cases h with
  | @stop _ _ st₁ _ _ _ vs ws hn hd hr =>
    exact ⟨vs, ws, _, by simpa using Reads.stop hn hd .nil, hr, rfl⟩
  | @more _ _ st₁ _ _ _ _ v vs ws hn hv hd hr =>
    exact ⟨v :: vs, ws, _, by simpa using Reads.more hn hv hd .nil, hr, rfl⟩

theorem Reads.append {cs cs' : List Bytes} {vs ws : List (Verdict P ι)}
    {st₁ : BufferedStreamDataConsumer σ} (h1 : Reads proto st cs vs st₁)
    (h2 : Reads proto st₁ cs' ws st') : Reads proto st (cs ++ cs') (vs ++ ws) st' := by
  induction h1 with
  | nil => exact h2
  | stop hn hd _ ih => rw [List.append_assoc]; exact .stop hn hd (ih h2)
  | more hn hv hd _ ih =>
    have := Reads.more hn hv hd (ih h2)
    simpa only [List.cons_append, List.append_assoc] using this

/-- **The consumer delivers the frames**, whatever reads it was given. -/
theorem reads_spec (h : BufferImplements proto.buildPacketFromBuffer F report ok L inv)
    (hL : ∀ hint, (proto.createBuffer hint).length = L) (hpos : 0 < L) (hok : F.Closed ok) :
    ∀ (cs : List Bytes) (st : BufferedStreamDataConsumer σ) (b : Bytes) {vs st'}, Rep F L inv st b →
      (∀ c ∈ cs, c ≠ []) → ok (b ++ cs.flatten) → Reads proto st cs vs st' →
      vs = (F.outs (b ++ cs.flatten)).map report ∧ ∃ b', Rep F L inv st' b' ∧
        F.norm b' = F.rest (b ++ cs.flatten)
  | [], st, b, vs, st', hr, _, _, hreads => by
    cases hreads
    rw [List.flatten_nil, List.append_nil, Framer.outs_none hr.dec, Framer.rest_none hr.dec]
    exact ⟨rfl, b, hr, rfl⟩
  | c :: cs, st, b, vs, st', hr, hne, hk, hreads => by
    have hc := hne c List.mem_cons_self
    rw [List.flatten_cons, ← List.append_assoc] at hk ⊢
    obtain ⟨vs₁, vs₂, st₁, h1, h2, rfl⟩ := hreads.cons_inv
    obtain ⟨start, st₀, h3, -, h4⟩ := read_of_rep h hL hpos hok hr hc (hok.of_append hk)
    have hfit : c.length ≤ st₀.nbytes start := by
      cases h1 with
      | stop hn => obtain ⟨_, _, hg, hfit, -⟩ := hn; rw [hg] at h3; cases h3; exact hfit
      | more hn => obtain ⟨_, _, hg, hfit, -⟩ := hn; rw [hg] at h3; cases h3; exact hfit
    obtain ⟨st₁', h5, h6⟩ := h4 hfit
    obtain ⟨rfl, rfl⟩ := h1.unique h5
    obtain ⟨rfl, b', h7, h8⟩ := reads_spec h hL hpos hok cs st₁ _ h6
      (fun x hx => hne x (List.mem_cons_of_mem _ hx)) (hok.rest _ _ hk) h2
    rw [Framer.outs_append (b ++ c), Framer.rest_append (b ++ c), List.map_append]
    exact ⟨rfl, b', h7, h8⟩

end BufferedStreamDataConsumer

end EasyNetwork
