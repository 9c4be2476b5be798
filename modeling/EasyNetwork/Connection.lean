/-
  The two ends of a stream connection.

  Packets are sent at one end (`ClientSend.lean`) and received at the other (`StreamEndpoint.lean`).
  In between the bytes are in flight: what the transport has accepted arrives in order, and a read
  takes any number of bytes from the front.

  `Lossless`: each packet that may be sent is one frame, which gives back the packet.
  `arrive`: then the calls of `recv_packet()` give the packets that have been sent, one after
  the other, in the order of the calls of `send_packet()`; in every interleaving, as long as no call
  is given up in the middle of its packet.
-/
import EasyNetwork.ClientSendOrder
import EasyNetwork.FramedReceive

namespace EasyNetwork

open Framing

namespace Connection

variable {Q σ P ι ρ : Type}

structure State (Q σ P ι : Type) where
  sender : ClientSend.State Q := {}
  /-- the bytes in flight -/
  wire : Bytes := []
  receiver : StreamEndpoint.State σ P ι

inductive Action (Q : Type) where
  | send (a : ClientSend.Action Q)
  | recvPacket (timeout : Delay)
  /-- a read takes the first bytes in flight -/
  | received (n : ℕ) (elapsed : ℚ)
  | endOfStream
  | timesOut

/-- One step of an interleaving. -/
def step (generate : Q → Except String (List Bytes))
    (f : Feeder σ Bytes WriteBuffer (NextResult P ι)) (s : State Q σ P ι) :
    Action Q → Option (State Q σ P ι)
  | .send a =>
    (ClientSend.step generate s.sender a).map fun sender =>
      -- what the transport accepts goes on the wire
      { s with sender, wire := s.wire ++ sender.stream.drop s.sender.stream.length }
  | .recvPacket timeout =>
    (StreamEndpoint.step f s.receiver (.recvPacket timeout)).map fun receiver =>
      { s with receiver }
  | .received n elapsed =>
    (StreamEndpoint.step f s.receiver (.received (s.wire.take n) elapsed)).map fun receiver =>
      { s with receiver, wire := s.wire.drop n }
  | .endOfStream =>
    if s.sender.eof = true ∧ s.wire = [] then
      (StreamEndpoint.step f s.receiver .endOfStream).map fun receiver => { s with receiver }
    else none
  | .timesOut =>
    (StreamEndpoint.step f s.receiver .timesOut).map fun receiver => { s with receiver }

/-- The packet of a call, if all of its bytes have been accepted. -/
def whole? (generate : Q → Except String (List Bytes)) (s : ClientSend.State Q)
    (x : ℕ × Bytes) : Option Q :=
  match (s.phase x.1).sends? with
  | none => none
  | some packet =>
    match generate packet with
    | .ok chunks => if x.2 = chunks.flatten then some packet else none
    | .error _ => none

/-- The packets that have been sent, in order. -/
def sent (generate : Q → Except String (List Bytes)) (s : ClientSend.State Q) : List Q :=
  s.accepted.filterMap (whole? generate s)

/-- No call has ended in the middle of its packet. -/
def Intact (generate : Q → Except String (List Bytes)) (s : ClientSend.State Q) : Prop :=
  ∀ x ∈ s.accepted, ∀ packet outcome, s.phase x.1 = .ended (.sendPacket packet) outcome →
    ∀ chunks, generate packet = .ok chunks → x.2 = [] ∨ x.2 = chunks.flatten

/-- Each packet that may be sent is one frame, and this gives `received packet`; the limits of the
    receiver admit any such packets one after the other. -/
structure Lossless (generate : Q → Except String (List Bytes)) (F : Framer UInt8 ρ)
    (report : ρ → Verdict P ι) (ok : Bytes → Prop) (sendable : Q → Prop) (received : Q → P) :
    Prop where
  frame : ∀ {packet chunks}, sendable packet → generate packet = .ok chunks →
    ∃ o, IsFrame F chunks.flatten o ∧ report o = .ok (received packet)
  ok : ∀ {ls : List Bytes}, (∀ l ∈ ls, ∃ packet chunks, sendable packet ∧
    generate packet = .ok chunks ∧ l = chunks.flatten) → ok ls.flatten

/-- Fewer packets may be sent. -/
theorem Lossless.imp {generate : Q → Except String (List Bytes)} {F : Framer UInt8 ρ}
    {report : ρ → Verdict P ι} {ok : Bytes → Prop} {sendable sendable' : Q → Prop}
    {received : Q → P} (h : Lossless generate F report ok sendable received)
    (himp : ∀ packet, sendable' packet → sendable packet) :
    Lossless generate F report ok sendable' received where
  frame hpacket := h.frame (himp _ hpacket)
  ok hls := h.ok fun l hl => by
    obtain ⟨packet, chunks, hpacket, hgenerate⟩ := hls l hl
    exact ⟨packet, chunks, himp packet hpacket, hgenerate⟩

/-- Each packet that may be sent is a frame, and the limits admit the frames of this kind. -/
theorem Lossless.of_frames {generate : Q → Except String (List Bytes)} {F : Framer UInt8 ρ}
    {report : ρ → Verdict P ι} {ok : Bytes → Prop} {sendable : Q → Prop} {received : Q → P}
    (short : ρ → Prop)
    (hframe : ∀ {packet chunks}, sendable packet → generate packet = .ok chunks →
      ∃ o, IsFrame F chunks.flatten o ∧ report o = .ok (received packet) ∧ short o)
    (hok : ∀ {ls os}, List.Forall₂ (IsFrame F) ls os → (∀ o ∈ os, short o) → ok ls.flatten) :
    Lossless generate F report ok sendable received where
  frame hsendable hchunks := by
    obtain ⟨o, hl, ho, -⟩ := hframe hsendable hchunks
    exact ⟨o, hl, ho⟩
  ok {ls} h := by
    have hos : ∃ os, List.Forall₂ (IsFrame F) ls os ∧ ∀ o ∈ os, short o := by
      induction ls with
      | nil => exact ⟨[], .nil, nofun⟩
      | cons l ls ih =>
        obtain ⟨os, hls, hos⟩ := ih fun l' hl' => h l' (List.mem_cons_of_mem l hl')
        obtain ⟨packet, chunks, hsendable, hchunks, rfl⟩ := h l List.mem_cons_self
        obtain ⟨o, hl, -, ho⟩ := hframe hsendable hchunks
        exact ⟨o :: os, .cons hl hls, List.forall_mem_cons.2 ⟨ho, hos⟩⟩
    obtain ⟨os, hls, hos⟩ := hos
    exact hok hls hos

/-! ## The stream as frames -/

section
variable {generate : Q → Except String (List Bytes)} {F : Framer UInt8 ρ}
  {report : ρ → Verdict P ι} {ok : Bytes → Prop} {sendable : Q → Prop} {received : Q → P}
  {s : ClientSend.State Q}

/-- The pieces of a stream: of each call nothing or all. -/
def Whole (generate : Q → Except String (List Bytes)) (s : ClientSend.State Q) (x : ℕ × Bytes) :
    Prop :=
  ∃ packet chunks, (s.phase x.1).sends? = some packet ∧ generate packet = .ok chunks ∧
    (x.2 = [] ∨ x.2 = chunks.flatten)

theorem whole?_eq_some {x : ℕ × Bytes} {packet : Q} : whole? generate s x = some packet ↔
    (s.phase x.1).sends? = some packet ∧ ∃ chunks, generate packet = .ok chunks ∧
      x.2 = chunks.flatten := by
  unfold whole?
  split
  · next h => simp [h]
  · next packet' h =>
    rw [h]
    split
    · next chunks hchunks =>
      split_ifs with hx
      · constructor
        · intro hp
          cases hp
          exact ⟨rfl, chunks, hchunks, hx⟩
        · rintro ⟨hp, -⟩
          exact hp
      · constructor
        · nofun
        · rintro ⟨hp, chunks', hchunks', hx'⟩
          cases hp
          cases hchunks.symm.trans hchunks'
          exact absurd hx' hx
    · next e he =>
      constructor
      · nofun
      · rintro ⟨hp, chunks', hchunks', -⟩
        cases hp
        exact nomatch he.symm.trans hchunks'

/-- Whole pieces are the frames of their packets, one after the other. -/
theorem frames_of_whole (hlossless : Lossless generate F report ok sendable received)
    (hsendable : ∀ n packet, (s.phase n).sends? = some packet → sendable packet)
    {xs : List (ℕ × Bytes)} (h : ∀ x ∈ xs, Whole generate s x) :
    ∃ ls os, xs.flatMap Prod.snd = ls.flatten ∧ List.Forall₂ (IsFrame F) ls os ∧
      os.map report = (xs.filterMap (whole? generate s)).map (fun q => .ok (received q)) ∧
      ∀ l ∈ ls, ∃ packet chunks, sendable packet ∧ generate packet = .ok chunks ∧
        l = chunks.flatten := by
  induction xs with
  | nil => exact ⟨[], [], rfl, .nil, rfl, nofun⟩
  | cons x xs ih =>
    obtain ⟨ls, os, hls, hframes, hreport, hdata⟩ := ih fun y hy => h y (List.mem_cons_of_mem x hy)
    obtain ⟨packet, chunks, hpacket, hchunks, hx⟩ := h x List.mem_cons_self
    obtain ⟨o, hframe, ho⟩ := hlossless.frame (hsendable _ _ hpacket) hchunks
    rw [List.flatMap_cons, hls]
    rcases hx with hx | hx
    · have hnone : whole? generate s x = none := by
        refine Option.eq_none_iff_forall_ne_some.2 fun q hq => ?_
        obtain ⟨hq, chunks', hchunks', hx'⟩ := whole?_eq_some.1 hq
        cases hpacket.symm.trans hq
        cases hchunks.symm.trans hchunks'
        exact hframe.ne_nil (hx'.symm.trans hx)
      refine ⟨ls, os, by rw [hx, List.nil_append], hframes, ?_, hdata⟩
      rw [List.filterMap_cons_none hnone]
      exact hreport
    · have hsome : whole? generate s x = some packet :=
        whole?_eq_some.2 ⟨hpacket, chunks, hchunks, hx⟩
      refine ⟨chunks.flatten :: ls, o :: os, by rw [hx, List.flatten_cons], .cons hframe hframes, ?_,
        ?_⟩
      · rw [List.filterMap_cons_some hsome, List.map_cons, List.map_cons, ho, hreport]
      · intro l hl
        rcases List.mem_cons.1 hl with rfl | hl
        · exact ⟨packet, chunks, hsendable _ _ hpacket, hchunks, rfl⟩
        · exact hdata l hl

/-- A call whose packet is in the stream has ended, or is the one that is sending. -/
theorem sending_or_ended {p : ClientSend.Phase Q} {packet : Q} (h : p.sends? = some packet) :
    (∃ rest, p = .sending packet rest) ∨ ∃ outcome, p = .ended (.sendPacket packet) outcome := by
  unfold ClientSend.Phase.sends? at h
  split at h <;> cases h
  · exact .inl ⟨_, rfl⟩
  · exact .inr ⟨_, rfl⟩

theorem whole_of_ended (hinv : ClientSend.Inv generate s) (hintact : Intact generate s)
    {x : ℕ × Bytes} (hx : x ∈ s.accepted)
    (hsending : ∀ packet rest, s.phase x.1 ≠ .sending packet rest) : Whole generate s x := by
  obtain ⟨packet, chunks, hpacket, hchunks, -⟩ := hinv.part x hx
  rcases sending_or_ended hpacket with ⟨rest, hphase⟩ | ⟨outcome, hphase⟩
  · exact absurd hphase (hsending packet rest)
  · exact ⟨packet, chunks, hpacket, hchunks, hintact x hx packet outcome hphase chunks hchunks⟩

/-- The stream: the frames of the packets that have been sent, and a part of the next one. -/
structure Frames (generate : Q → Except String (List Bytes)) (F : Framer UInt8 ρ)
    (report : ρ → Verdict P ι) (ok : Bytes → Prop) (received : Q → P) (s : ClientSend.State Q)
    (ls : List Bytes) (os : List ρ) (part : Bytes) : Prop where
  stream : s.stream = ls.flatten ++ part
  frames : List.Forall₂ (IsFrame F) ls os
  report : os.map report = (sent generate s).map fun packet => .ok (received packet)
  part : F.outs part = []
  ok : ok s.stream

theorem exists_frames (hinv : ClientSend.Inv generate s) (hintact : Intact generate s)
    (hlossless : Lossless generate F report ok sendable received) (hok : F.Closed ok)
    (hsendable : ∀ n packet, (s.phase n).sends? = some packet → sendable packet) :
    ∃ ls os part, Frames generate F report ok received s ls os part := by
  -- when every call has sent nothing or all
  have hall : (∀ x ∈ s.accepted, Whole generate s x) →
      ∃ ls os part, Frames generate F report ok received s ls os part := by
    intro hwhole
    obtain ⟨ls, os, hls, hframes, hreport, hdata⟩ := frames_of_whole hlossless hsendable hwhole
    refine ⟨ls, os, [], by rw [List.append_nil]; exact hls, hframes, hreport, F.outs_nil, ?_⟩
    rw [ClientSend.State.stream, hls]
    exact hlossless.ok hdata
  by_cases hsending : ∃ x ∈ s.accepted, ∃ packet rest, s.phase x.1 = .sending packet rest
  swap
  · refine hall fun x hx => whole_of_ended hinv hintact hx fun packet rest hphase => ?_
    exact hsending ⟨x, hx, packet, rest, hphase⟩
  obtain ⟨x, -, packet, rest, hphase⟩ := hsending
  obtain ⟨before, b, chunks, haccepted, hchunks, hflatten⟩ := hinv.sending _ _ _ hphase
  have hsorted := hinv.sorted
  rw [haccepted, List.map_append, List.pairwise_append] at hsorted
  have hbefore : ∀ y ∈ before, Whole generate s y := by
    intro y hy
    refine whole_of_ended hinv hintact (by rw [haccepted]; exact List.mem_append_left _ hy)
      fun packet' rest' hphase' => ?_
    -- two calls do not send at the same time
    have heq := hinv.unique (n := x.1) (m := y.1) (by rw [hphase']; rfl) (by rw [hphase]; rfl)
    have hlt := hsorted.2.2 y.1 (List.mem_map_of_mem hy) x.1 (List.mem_singleton_self _)
    omega
  have hpacket : (s.phase x.1).sends? = some packet := by rw [hphase]; rfl
  by_cases hwhole : b = [] ∨ b = chunks.flatten
  · refine hall fun y hy => ?_
    rw [haccepted] at hy
    rcases List.mem_append.1 hy with hy | hy
    · exact hbefore y hy
    · rw [List.mem_singleton.1 hy]
      exact ⟨packet, chunks, hpacket, hchunks, hwhole⟩
  · rw [not_or] at hwhole
    obtain ⟨ls, os, hls, hframes, hreport, hdata⟩ := frames_of_whole hlossless hsendable hbefore
    obtain ⟨o, hframe, -⟩ := hlossless.frame (hsendable _ _ hpacket) hchunks
    have hstream : s.stream = ls.flatten ++ b := by
      rw [ClientSend.State.stream, haccepted, List.flatMap_append, hls]
      simp only [List.flatMap_cons, List.flatMap_nil, List.append_nil]
    have hnone : whole? generate s (x.1, b) = none := by
      refine Option.eq_none_iff_forall_ne_some.2 fun q hq => ?_
      obtain ⟨hq, chunks', hchunks', hb⟩ := whole?_eq_some.1 hq
      cases hpacket.symm.trans hq
      cases hchunks.symm.trans hchunks'
      exact hwhole.2 hb
    refine ⟨ls, os, b, hstream, hframes, ?_, hframe.outs_part ⟨rest, hflatten.symm⟩ hwhole.2, ?_⟩
    · rw [hreport, sent, haccepted, List.filterMap_append, List.filterMap_cons_none hnone,
        List.filterMap_nil, List.append_nil]
    · have hmore : ok (ls ++ [chunks.flatten]).flatten := by
        refine hlossless.ok fun l hl => ?_
        rcases List.mem_append.1 hl with hl | hl
        · exact hdata l hl
        · exact ⟨packet, chunks, hsendable _ _ hpacket, hchunks, List.mem_singleton.1 hl⟩
      rw [List.flatten_concat, hflatten, ← List.append_assoc] at hmore
      rw [hstream]
      exact hok.of_append hmore

end

/-! ## Both ends -/

section
variable {generate : Q → Except String (List Bytes)} {F : Framer UInt8 ρ}
  {report : ρ → Verdict P ι} {ok : Bytes → Prop} {sendable : Q → Prop} {received : Q → P}
  {f : Feeder σ Bytes WriteBuffer (NextResult P ι)} {Holds Waits : σ → Bytes → Prop}
  {Ok : σ → Prop} {s₀ : σ} {s s' : State Q σ P ι}

/-- What has been read and what is in flight is what has been sent. -/
structure Inv (generate : Q → Except String (List Bytes))
    (f : Feeder σ Bytes WriteBuffer (NextResult P ι)) (F : Framer UInt8 ρ)
    (report : ρ → Verdict P ι) (ok : Bytes → Prop) (Holds Waits : σ → Bytes → Prop) (s₀ : σ)
    (s : State Q σ P ι) : Prop where
  sender : ClientSend.Inv generate s.sender
  receiver : StreamEndpoint.Keeps f F report ok Holds Waits s₀ s.receiver
  bytes : s.receiver.chunks.flatten ++ s.wire = s.sender.stream
  eof : s.receiver.eofReached = true → s.sender.eof = true ∧ s.wire = []

/-- The invariant of the sender does not depend on the receiver. -/
theorem run_sender_inv {as : List (Action Q)} {receiver : StreamEndpoint.State σ P ι}
    (h : Trans.run (step generate f) { receiver } as = some s) :
    ClientSend.Inv generate s.sender := by
  refine Trans.run_inv (I := fun s => ClientSend.Inv generate s.sender) (fun s a s' hi hs => ?_)
    .init h
  cases a with
  | send a =>
    simp only [step, Option.map_eq_some_iff] at hs
    obtain ⟨sender, hsend, rfl⟩ := hs
    exact hi.step hsend
  | endOfStream =>
    simp only [step] at hs
    split_ifs at hs
    rw [Option.map_eq_some_iff] at hs
    obtain ⟨-, -, rfl⟩ := hs
    exact hi
  | recvPacket timeout | received n elapsed | timesOut =>
    simp only [step, Option.map_eq_some_iff] at hs
    obtain ⟨-, -, rfl⟩ := hs
    exact hi

/-- **Step lemma.** -/
theorem step_inv (hf : StreamEndpoint.ReadsFrames f F report ok Holds Waits) (hok : F.Closed ok)
    (hlawful : f.Lawful Ok) (h₀ : Ok s₀) {a : Action Q}
    (h : Inv generate f F report ok Holds Waits s₀ s) (hs : step generate f s a = some s') :
    Inv generate f F report ok Holds Waits s₀ s' := by
  -- a step of the receiver that reads nothing
  have hquiet : ∀ {a : StreamEndpoint.Action} {receiver : StreamEndpoint.State σ P ι},
      StreamEndpoint.step f s.receiver a = some receiver →
      (∀ chunk elapsed, a ≠ .received chunk elapsed) →
      (a = .endOfStream → s.sender.eof = true ∧ s.wire = []) →
      Inv generate f F report ok Holds Waits s₀ { s with receiver } := by
    intro a receiver hstep hread heof
    have hchunks : receiver.chunks = s.receiver.chunks := by
      rcases StreamEndpoint.chunks_step hstep with ⟨-, -, chunk, elapsed, rfl, -⟩ | ⟨hchunks, -⟩
      · exact absurd rfl (hread chunk elapsed)
      · exact hchunks
    refine ⟨h.sender, StreamEndpoint.keeps_step hf hok hlawful h₀ h.receiver hstep, ?_, fun hc => ?_⟩
    · show receiver.chunks.flatten ++ s.wire = s.sender.stream
      rw [hchunks]
      exact h.bytes
    · by_cases ha : a = .endOfStream
      · exact heof ha
      · exact h.eof ((StreamEndpoint.eofReached_step hstep ha).symm.trans hc)
  cases a with
  | send a =>
    simp only [step, Option.map_eq_some_iff] at hs
    obtain ⟨sender, hsend, rfl⟩ := hs
    obtain ⟨bytes, hbytes, hnil⟩ := h.sender.exists_append hsend
    have hdrop : sender.stream.drop s.sender.stream.length = bytes := by
      rw [hbytes, List.drop_left]
    refine ⟨h.sender.step hsend, h.receiver, ?_, fun hc => ?_⟩
    · show s.receiver.chunks.flatten ++ (s.wire ++ sender.stream.drop s.sender.stream.length) =
        sender.stream
      rw [hdrop, ← List.append_assoc, h.bytes, hbytes]
    · obtain ⟨heof, hwire⟩ := h.eof hc
      obtain ⟨heof', rfl⟩ := hnil heof
      refine ⟨heof', ?_⟩
      show s.wire ++ sender.stream.drop s.sender.stream.length = []
      rw [hdrop, hwire, List.append_nil]
  | recvPacket timeout =>
    simp only [step, Option.map_eq_some_iff] at hs
    obtain ⟨receiver, hstep, rfl⟩ := hs
    exact hquiet hstep nofun nofun
  | received n elapsed =>
    simp only [step, Option.map_eq_some_iff] at hs
    obtain ⟨receiver, hstep, rfl⟩ := hs
    have hchunks : receiver.chunks = s.receiver.chunks ++ [s.wire.take n] := by
      rcases StreamEndpoint.chunks_step hstep with
        ⟨-, -, chunk, elapsed, heq, -, -, -, hchunks, -⟩ | ⟨-, hne⟩
      · cases heq
        exact hchunks
      · exact absurd rfl (hne _ _)
    refine ⟨h.sender, StreamEndpoint.keeps_step hf hok hlawful h₀ h.receiver hstep, ?_, fun hc => ?_⟩
    · show receiver.chunks.flatten ++ s.wire.drop n = s.sender.stream
      rw [hchunks, List.flatten_concat, List.append_assoc, List.take_append_drop]
      exact h.bytes
    · obtain ⟨heof, hwire⟩ := h.eof ((StreamEndpoint.eofReached_step hstep nofun).symm.trans hc)
      refine ⟨heof, ?_⟩
      show s.wire.drop n = []
      rw [hwire, List.drop_nil]
  | endOfStream =>
    simp only [step] at hs
    split_ifs at hs with hend
    rw [Option.map_eq_some_iff] at hs
    obtain ⟨receiver, hstep, rfl⟩ := hs
    exact hquiet hstep nofun fun _ => hend
  | timesOut =>
    simp only [step, Option.map_eq_some_iff] at hs
    obtain ⟨receiver, hstep, rfl⟩ := hs
    exact hquiet hstep nofun nofun

/-- **Run lemma.** -/
theorem run_inv (hf : StreamEndpoint.ReadsFrames f F report ok Holds Waits) (hok : F.Closed ok)
    (hlawful : f.Lawful Ok) (h₀ : Ok s₀) (hw : Waits s₀ []) {as : List (Action Q)}
    (h : Trans.run (step generate f) { receiver := { consumer := s₀ } } as = some s) :
    Inv generate f F report ok Holds Waits s₀ s := by
  refine Trans.run_inv (fun _ _ _ hi hs => step_inv hf hok hlawful h₀ hi hs) ?_ h
  exact ⟨.init, StreamEndpoint.keeps_init hf hw, rfl, nofun⟩

/-- What the receiver has been given of the packets that have been sent. -/
structure Delivers (generate : Q → Except String (List Bytes)) (received : Q → P)
    (s : State Q σ P ι) : Prop where
  /-- the first of them, in order -/
  isPrefix : s.receiver.results <+:
    (sent generate s.sender).map fun packet => .packet (received packet)
  /-- all of them, when nothing is in flight and a call waits for the transport -/
  all : s.wire = [] → s.receiver.reading ≠ none → s.receiver.results =
    (sent generate s.sender).map fun packet => .packet (received packet)
  /-- all of them, when a call has found the end of the stream -/
  aborted : .connectionAborted ∈ s.receiver.outcomes → s.sender.eof = true ∧
    s.receiver.results = (sent generate s.sender).map fun packet => .packet (received packet)

theorem eq_of_verdicts {rs : List (NextResult P ι)} {ps : List P}
    (h : rs.map NextResult.verdict? = ps.map fun packet => some (.ok packet)) :
    rs = ps.map NextResult.packet := by
  induction ps generalizing rs with
  | nil => exact List.map_eq_nil_iff.1 h
  | cons p ps ih =>
    obtain ⟨r, rs, rfl⟩ := List.exists_cons_of_ne_nil (l := rs) (by rintro rfl; cases h)
    rw [List.map_cons, List.map_cons, List.cons.injEq] at h
    rw [List.map_cons, ih h.2]
    congr 1
    cases r with
    | packet q => cases h.1; rfl
    | stopIteration => cases h.1
    | parseError e => cases h.1
    | raised message => cases h.1

/-- What has been taken from the first bytes of the stream are the first of the packets; all of them,
    when these are all the bytes and no frame is left. -/
theorem Frames.results {s : ClientSend.State Q} {ls : List Bytes} {os : List ρ} {part : Bytes}
    (h : Frames generate F report ok received s ls os part) {t wire b : Bytes} {taken : List ρ}
    {rs : List (NextResult P ι)} (hbytes : t ++ wire = s.stream) (hleaves : Leaves F ok t taken b)
    (hresults : rs.map NextResult.verdict? = taken.map fun o => some (report o)) :
    rs <+: (sent generate s).map (fun packet => .packet (received packet)) ∧
    (F.dec b = none → wire = [] →
      rs = (sent generate s).map fun packet => .packet (received packet)) := by
  have hstream : F.outs s.stream = os := by
    rw [h.stream, outs_flatten h.frames, h.part, List.append_nil]
  have hsome : os.map (fun o => some (report o)) =
      ((sent generate s).map received).map fun packet => some (.ok packet) := by
    have := congrArg (List.map some) h.report
    rw [List.map_map, List.map_map] at this
    rw [List.map_map]
    exact this
  constructor
  · have hbegins : taken <+: os := by
      rw [← hstream, ← hbytes, Framer.outs_append, hleaves.outs_eq, List.append_assoc]
      exact List.prefix_append _ _
    obtain ⟨more, rfl⟩ := hbegins
    rw [List.map_append] at hsome
    have hlen : taken.map (fun o => some (report o)) =
        (((sent generate s).map received).take taken.length).map fun packet => some (.ok packet) := by
      rw [List.map_take, ← hsome, List.take_left' (List.length_map _)]
    rw [eq_of_verdicts (hresults.trans hlen), List.map_take, List.map_map]
    exact List.take_prefix _ _
  · intro hdec hwire
    have htaken : taken = os := by
      rw [← hstream, ← hbytes, hwire, List.append_nil, hleaves.outs_eq, Framer.outs_none hdec,
        List.append_nil]
    rw [htaken, hsome] at hresults
    rw [eq_of_verdicts hresults, List.map_map]
    rfl

theorem Inv.delivers (hf : StreamEndpoint.ReadsFrames f F report ok Holds Waits)
    (hok : F.Closed ok) (hlossless : Lossless generate F report ok sendable received)
    (h : Inv generate f F report ok Holds Waits s₀ s) (hintact : Intact generate s.sender)
    (hsendable : ∀ n packet, (s.sender.phase n).sends? = some packet → sendable packet) :
    Delivers generate received s := by
  obtain ⟨ls, os, part, hframes⟩ := exists_frames h.sender hintact hlossless hok hsendable
  have htotal : ok s.receiver.chunks.flatten := by
    have := hframes.ok
    rw [← h.bytes] at this
    exact hok.of_append this
  obtain ⟨taken, b, hframed⟩ := h.receiver.2 htotal
  obtain ⟨hbegins, hall⟩ := hframes.results h.bytes hframed.leaves hframed.results
  refine ⟨hbegins, fun hwire hreading => hall (hf.dec (hframed.reading hreading)) hwire,
    fun hm => ?_⟩
  obtain ⟨hw, heof⟩ := hframed.aborted hm
  obtain ⟨heof', hwire⟩ := h.eof heof
  exact ⟨heof', hall (hf.dec hw) hwire⟩

end

/-- In every interleaving in which no call has ended in the middle of its packet, and the packets
    may be sent, the receiver is given what has been sent. -/
def Arrive (generate : Q → Except String (List Bytes))
    (f : Feeder σ Bytes WriteBuffer (NextResult P ι)) (s₀ : σ) (sendable : Q → Prop)
    (received : Q → P) : Prop :=
  ∀ as s, Trans.run (step generate f) { receiver := { consumer := s₀ } } as = some s →
    Intact generate s.sender →
    (∀ n packet, (s.sender.phase n).sends? = some packet → sendable packet) →
    Delivers generate received s

/-- **The packets arrive**, with either receiver. -/
theorem arrive {σ σ' : Type} {proto : StreamProtocol σ P ι}
    {buffered : BufferedStreamProtocol σ' P ι} {generate : Q → Except String (List Bytes)}
    {F : Framer UInt8 ρ} {report : ρ → Verdict P ι} {ok : Bytes → Prop} {sendable : Q → Prop}
    {received : Q → P} {inv : σ → Bytes → Prop} {inv' : σ' → ℕ → Bytes → Bytes → Prop}
    {maxRecvSize L hint : ℕ} (hok : F.Closed ok)
    (hlossless : Lossless generate F report ok sendable received)
    (himpl : Implements proto.buildPacketFromChunks F report ok inv) (hmax : 0 < maxRecvSize)
    (hbuffered : BufferImplements buffered.buildPacketFromBuffer F report ok L inv')
    (hL : (buffered.createBuffer hint).length = L) (hpos : 0 < L) :
    Arrive generate (StreamEndpoint.dataReceiver proto maxRecvSize) .init sendable received ∧
    Arrive generate (StreamEndpoint.bufferedReceiver buffered) (.init hint) sendable received := by
  constructor
  · intro as s hrun hintact hsendable
    have hf := StreamEndpoint.dataReceiver_readsFrames himpl hmax
    exact (run_inv hf hok (StreamEndpoint.dataReceiver_lawful proto maxRecvSize) trivial
      (StreamDataConsumer.rep_init F inv) hrun).delivers hf hok hlossless hintact hsendable
  · intro as s hrun hintact hsendable
    have hf := StreamEndpoint.bufferedReceiver_readsFrames hbuffered hL hpos
    exact (run_inv hf hok (StreamEndpoint.bufferedReceiver_lawful buffered) (fun _ => rfl)
      ⟨rfl, BufferedStreamDataConsumer.rep_init F hint⟩ hrun).delivers hf hok hlossless hintact
      hsendable

end Connection

end EasyNetwork
