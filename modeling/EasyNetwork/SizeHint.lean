/-
  The size hint of a `BufferedStreamDataConsumer` never changes: of `create_buffer` it only uses the
  buffers for this hint (`bufferedReceiver_atHint`).
-/
import EasyNetwork.StreamEndpoint

namespace EasyNetwork

/-- The protocol whose buffers are those for one hint. -/
def BufferedStreamProtocol.atHint {σ P ι : Type} (proto : BufferedStreamProtocol σ P ι)
    (hint : ℕ) : BufferedStreamProtocol σ P ι :=
  { proto with createBuffer := fun _ => proto.createBuffer hint }

namespace BufferedStreamDataConsumer
variable {σ P ι : Type} {proto : BufferedStreamProtocol σ P ι}
  {st st' : BufferedStreamDataConsumer σ} {hint : ℕ}

/-! ## The hint stays -/

theorem sizehint_withBuffer {buffer : Bytes} (h : withBuffer proto st = .ok (buffer, st')) :
    st'.sizehint = st.sizehint := by
  unfold withBuffer at h
  split at h
  · cases h
    rfl
  · split at h
    · cases h
    · dsimp only at h
      split at h <;> cases h
      rfl

variable (proto st) in
theorem sizehint_withConsumer (buffer : Bytes) :
    (withConsumer proto st buffer).2.sizehint = st.sizehint := by
  unfold withConsumer
  split
  · rfl
  · split <;> rfl

variable (proto st) in
theorem sizehint_newWriteBuffer : (newWriteBuffer proto st).2.sizehint = st.sizehint := by
  unfold newWriteBuffer
  split
  · rfl
  · next buffer st' hbuffer =>
    have hhint := sizehint_withBuffer hbuffer
    have hconsumer := sizehint_withConsumer proto st' buffer
    split
    · next heq =>
      rw [heq] at hconsumer
      exact hconsumer.trans hhint
    · next heq =>
      rw [heq] at hconsumer
      dsimp only
      split_ifs <;> exact hconsumer.trans hhint

variable (proto st) in
theorem sizehint_getWriteBuffer : (getWriteBuffer proto st).2.sizehint = st.sizehint := by
  unfold getWriteBuffer
  split
  · rfl
  · have h := sizehint_newWriteBuffer proto st
    split <;> next heq => rw [heq] at h; exact h

theorem sizehint_saveThen (remainingData : Bytes) (r : NextResult P ι) :
    (saveThen proto st remainingData r).2.sizehint = st.sizehint := by
  have hsave : (saveRemainderInBuffer proto st remainingData).2.sizehint = st.sizehint := by
    unfold saveRemainderInBuffer
    split_ifs
    · rfl
    · have h := sizehint_newWriteBuffer proto { st with buffer := none }
      split
      · next heq =>
        rw [heq] at h
        exact h
      · next heq =>
        rw [heq] at h
        split_ifs <;> exact h
  unfold saveThen
  split <;> next heq => rw [heq] at hsave; exact hsave

theorem sizehint_send (g : σ) (n : ℕ) : (send proto st g n).2.sizehint = st.sizehint := by
  unfold send
  dsimp only
  split
  · exact sizehint_saveThen _ _
  · exact sizehint_saveThen _ _
  · rfl
  · rfl

theorem sizehint_next (n : Option ℕ) : (next proto st n).2.sizehint = st.sizehint := by
  have hchecked : ∀ n, (nextChecked proto st n).2.sizehint = st.sizehint := by
    intro n
    unfold nextChecked
    split
    · rfl
    · dsimp only
      split_ifs
      · rfl
      · exact sizehint_send _ _
  unfold next
  split
  · exact hchecked 0
  · split
    · rfl
    · split_ifs
      · exact hchecked _
      · rfl

/-! ## Other hints are not used -/

theorem newWriteBuffer_atHint (h : st.sizehint = hint) :
    newWriteBuffer (proto.atHint hint) st = newWriteBuffer proto st := by
  have hbuffer : withBuffer (proto.atHint hint) st = withBuffer proto st := by
    unfold withBuffer
    rw [h]
    rfl
  unfold newWriteBuffer
  rw [hbuffer]
  rfl

theorem getWriteBuffer_atHint (h : st.sizehint = hint) :
    getWriteBuffer (proto.atHint hint) st = getWriteBuffer proto st := by
  unfold getWriteBuffer
  rw [newWriteBuffer_atHint h]

theorem saveThen_atHint (h : st.sizehint = hint) (remainingData : Bytes) (r : NextResult P ι) :
    saveThen (proto.atHint hint) st remainingData r = saveThen proto st remainingData r := by
  have hnew : newWriteBuffer (proto.atHint hint) { st with buffer := none } =
      newWriteBuffer proto { st with buffer := none } := newWriteBuffer_atHint h
  unfold saveThen saveRemainderInBuffer
  rw [hnew]

theorem send_atHint (h : st.sizehint = hint) (g : σ) (n : ℕ) :
    send (proto.atHint hint) st g n = send proto st g n := by
  unfold send
  rw [show (proto.atHint hint).buildPacketFromBuffer = proto.buildPacketFromBuffer from rfl]
  dsimp only
  split
  · exact saveThen_atHint (by exact h) _ _
  · exact saveThen_atHint (by exact h) _ _
  · rfl
  · rfl

theorem next_atHint (h : st.sizehint = hint) (n : Option ℕ) :
    next (proto.atHint hint) st n = next proto st n := by
  have hchecked : ∀ n, nextChecked (proto.atHint hint) st n = nextChecked proto st n := by
    intro n
    unfold nextChecked
    split
    · rfl
    · dsimp only
      rw [send_atHint (by exact h)]
  unfold next
  simp only [hchecked]

end BufferedStreamDataConsumer

namespace StreamEndpoint
variable {σ P ι : Type}

/-- The consumers with one hint: `f` does in these states what `g` does, and stays in them. -/
structure Follows {β : Type} (f g : Feeder σ Bytes β (NextResult P ι)) (Ok : σ → Prop) : Prop where
  take : ∀ {s}, Ok s → f.take s = g.take s ∧ Ok (f.take s).2
  offer : ∀ {s}, Ok s → f.offer s = g.offer s ∧ Ok (f.offer s).2
  give : ∀ {s} buffer chunk, Ok s →
    f.give s buffer chunk = g.give s buffer chunk ∧ Ok (f.give s buffer chunk).2

theorem bufferedReceiver_atHint (proto : BufferedStreamProtocol σ P ι) (hint : ℕ) :
    Follows (bufferedReceiver proto) (bufferedReceiver (proto.atHint hint))
      fun consumer => consumer.sizehint = hint where
  take h := by
    unfold bufferedReceiver
    dsimp only
    rw [BufferedStreamDataConsumer.next_atHint h]
    exact ⟨rfl, (BufferedStreamDataConsumer.sizehint_next _).trans h⟩
  offer {s} h := by
    unfold bufferedReceiver
    dsimp only
    rw [BufferedStreamDataConsumer.getWriteBuffer_atHint h]
    have hs := (BufferedStreamDataConsumer.sizehint_getWriteBuffer proto s).trans h
    refine ⟨rfl, ?_⟩
    split <;> next heq => rw [heq] at hs; exact hs
  give {s} buffer chunk h := by
    have hw : (s.write buffer.start chunk).sizehint = hint := h
    unfold bufferedReceiver
    dsimp only
    rw [BufferedStreamDataConsumer.next_atHint hw]
    exact ⟨rfl, (BufferedStreamDataConsumer.sizehint_next _).trans hw⟩

end StreamEndpoint

end EasyNetwork
