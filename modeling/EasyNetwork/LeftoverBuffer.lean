/-
  `adjust_leftover_buffer` on views of any item size and any shape.

  A view is counted by `len()`, the size of its first dimension.  A view whose items are not bytes
  is cast to bytes before, and is one-dimensional then; a view of bytes is counted as it is, which
  counts its rows if it has more dimensions.

  `adjustLeftoverBuffer_iff`: exactly the sent bytes are dropped iff the views are counted in bytes,
  as all one-dimensional views are (`countsBytes_of_oneDim`).  The transports are modelled on such
  views (`adjustLeftoverBuffer_toMemoryView`).
-/
import EasyNetwork.Lib.MapM
import EasyNetwork.SendAllDelivery
import Mathlib.Algebra.BigOperators.Ring.List

namespace EasyNetwork

open Gather

/-- What the operations of `memoryview` and `deque` may raise. -/
inductive ViewError where
  | indexError (message : String)
  | typeError (message : String)
  deriving DecidableEq, Repr

/-- A `memoryview`. -/
structure ShapedView where
  itemsize : ℕ
  /-- the size and the stride of each dimension -/
  dims : List (ℕ × ℤ)
  /-- `tobytes()` -/
  data : Bytes
  length_data : data.length = itemsize * (dims.map Prod.fst).prod
  deriving DecidableEq, Repr

namespace ShapedView

def shape (v : ShapedView) : List ℕ := v.dims.map Prod.fst

/-- `memoryview()` of a `bytes` object. -/
def ofBytes (data : Bytes) : ShapedView where
  itemsize := 1
  dims := [(data.length, 1)]
  data := data
  length_data := by simp

/-- Each stride is the size of what it steps over. -/
def isPacked (itemsize : ℕ) : List (ℕ × ℤ) → Bool
  | [] => true
  | (n, stride) :: dims =>
    (n ≤ 1 || stride = itemsize * (dims.map Prod.fst).prod) && isPacked itemsize dims

/-- `c_contiguous`. -/
def cContiguous (v : ShapedView) : Bool :=
  match v.dims with
  | [] => true
  | [(n, stride)] => n = 1 || stride = v.itemsize
  | dims => v.data.isEmpty || isPacked v.itemsize dims

/-- `cast("B")`. -/
def castB (v : ShapedView) : Except ViewError ShapedView :=
  if ¬ v.cContiguous then
    .error (.typeError "memoryview: casts are restricted to C-contiguous views")
  else if v.dims.length ≠ 1 ∧ 0 ∈ v.shape then
    .error (.typeError "memoryview: cannot cast view with zeros in shape or strides")
  else .ok (ofBytes v.data)

/-- `len()`. -/
def len (v : ShapedView) : Except ViewError ℕ :=
  match v.dims with
  | [] => .error (.typeError "0-dim memory has no length")
  | (n, _) :: _ => .ok n

/-- `v[k:]`, which slices the first dimension. -/
def drop : ShapedView → ℕ → Except ViewError ShapedView
  | ⟨_, [], _, _⟩, _ => .error (.typeError "invalid indexing of 0-dim memory")
  | ⟨itemsize, (n, stride) :: dims, data, h⟩, k => .ok
    { itemsize
      dims := (n - k, stride) :: dims
      data := data.drop (k * (itemsize * (dims.map Prod.fst).prod))
      length_data := by
        rw [List.length_drop, h, List.map_cons, List.prod_cons, List.map_cons, List.prod_cons,
          Nat.mul_left_comm, Nat.mul_left_comm itemsize, Nat.sub_mul] }

/-- `_utils.adjust_leftover_buffer`. -/
def adjustLeftoverBuffer (buffers : List ShapedView) (nbytes : ℕ) :
    Except ViewError (List ShapedView) :=
  if nbytes = 0 then .ok buffers
  else match buffers with
    | [] => .error (.indexError "pop from an empty deque")
    | b :: buffers => do
      -- bytes are not cast, also in a view that is not one-dimensional
      let b ← (if b.itemsize ≠ 1 then b.castB else .ok b)
      let bLen ← b.len
      if bLen ≤ nbytes then adjustLeftoverBuffer buffers (nbytes - bLen)
      else return (← b.drop nbytes) :: buffers

/-! ## What is sent -/

/-- The contents of the views, one after the other. -/
def bytes (buffers : List ShapedView) : Bytes := buffers.flatMap data

@[simp] theorem bytes_nil : bytes [] = [] := rfl

@[simp] theorem bytes_cons (b : ShapedView) (buffers : List ShapedView) :
    bytes (b :: buffers) = b.data ++ bytes buffers := List.flatMap_cons

/-- **The first `n` bytes are dropped**, without a `popleft()` of an empty deque, which raises.  The
    views before the one with the `n`-th byte, the last that has been sent, are removed, and none of
    those behind it is. -/
def DropsSent (buffers : List ShapedView) (n : ℕ) : Prop :=
  ∃ left, adjustLeftoverBuffer buffers n = .ok left ∧ bytes left = (bytes buffers).drop n ∧
    ∀ pre b post, buffers = pre ++ b :: post → (bytes pre).length < n →
      n ≤ (bytes pre).length + b.data.length → ∃ first, left = first ++ post ∧ first.length ≤ 1

/-- A view of bytes has as many of them as its first dimension has items, and a view of other items
    can be cast to bytes. -/
def CountsBytes (b : ShapedView) : Prop :=
  if b.itemsize = 1 then b.shape.head? = some b.data.length
  else b.cContiguous = true ∧ (b.dims.length = 1 ∨ 0 ∉ b.shape)

instance (b : ShapedView) : Decidable b.CountsBytes :=
  inferInstanceAs (Decidable (if b.itemsize = 1 then b.shape.head? = some b.data.length
    else b.cContiguous = true ∧ (b.dims.length = 1 ∨ 0 ∉ b.shape)))

/-- Each view that begins before the `n`-th byte is counted in bytes. -/
def CountsBefore (buffers : List ShapedView) (n : ℕ) : Prop :=
  ∀ pre b post, buffers = pre ++ b :: post → (bytes pre).length < n → b.CountsBytes

/-- The rows of a view of bytes are not empty. -/
def HasRows (b : ShapedView) : Prop := b.itemsize = 1 → 0 ∉ b.shape.tail

/-! ## One view -/

section
variable {b v w : ShapedView} {buffers left : List ShapedView} {n k : ℕ}

/-- The view as it is counted. -/
def inBytes (b : ShapedView) : Except ViewError ShapedView :=
  if b.itemsize ≠ 1 then b.castB else .ok b

theorem inBytes_spec (h : b.inBytes = .ok v) :
    v.itemsize = 1 ∧ v.data = b.data ∧ (b.HasRows → 0 ∉ v.shape.tail) := by
  rw [inBytes] at h
  split_ifs at h with hitem
  · rw [castB] at h
    split_ifs at h
    cases h
    exact ⟨rfl, rfl, fun _ => List.not_mem_nil⟩
  · cases h
    exact ⟨not_not.1 hitem, rfl, fun hrows => hrows (not_not.1 hitem)⟩

theorem castB_eq_ok : b.castB = .ok v ↔
    b.cContiguous = true ∧ (b.dims.length = 1 ∨ 0 ∉ b.shape) ∧ v = ofBytes b.data := by
  rw [castB]
  by_cases hcontiguous : b.cContiguous = true
  · rw [if_neg (not_not.2 hcontiguous)]
    by_cases hzero : b.dims.length ≠ 1 ∧ 0 ∈ b.shape
    · rw [if_pos hzero]
      refine ⟨nofun, fun h => ?_⟩
      rcases h.2.1 with h1 | h0
      · exact absurd h1 hzero.1
      · exact absurd hzero.2 h0
    · rw [if_neg hzero]
      rw [not_and_or, not_not] at hzero
      exact ⟨fun h => ⟨hcontiguous, hzero, (Except.ok.inj h).symm⟩, fun h => by rw [h.2.2]⟩
  · rw [if_pos hcontiguous]
    exact ⟨nofun, fun h => absurd h.1 hcontiguous⟩

/-- `len()` gives the number of bytes iff the view is counted in bytes. -/
theorem countsBytes_iff : b.CountsBytes ↔ ∃ v, b.inBytes = .ok v ∧ v.len = .ok b.data.length := by
  rw [CountsBytes, inBytes]
  by_cases hitem : b.itemsize = 1
  · rw [if_pos hitem, if_neg (not_not.2 hitem)]
    have hlen : b.len = .ok b.data.length ↔ b.shape.head? = some b.data.length := by
      rw [len, shape]
      cases b.dims with
      | nil => exact ⟨nofun, nofun⟩
      | cons d dims =>
        rw [List.map_cons, List.head?_cons, Option.some_inj]
        exact ⟨Except.ok.inj, congrArg _⟩
    rw [← hlen]
    exact ⟨fun h => ⟨b, rfl, h⟩, fun ⟨v, hv, h⟩ => by cases hv; exact h⟩
  · rw [if_neg hitem, if_pos hitem]
    simp only [castB_eq_ok]
    exact ⟨fun h => ⟨_, ⟨h.1, h.2, rfl⟩, rfl⟩, fun ⟨v, h, _⟩ => ⟨h.1, h.2.1⟩⟩

/-- Slicing drops whole rows. -/
theorem drop_spec (h : v.len = .ok n) (hitem : v.itemsize = 1) :
    ∃ row, v.data.length = n * row ∧ (0 ∉ v.shape.tail → 0 < row) ∧ ∀ k, ∃ w, v.drop k = .ok w ∧
      w.itemsize = 1 ∧ w.data = v.data.drop (k * row) := by
  obtain ⟨itemsize, dims, data, hdata⟩ := v
  obtain rfl : itemsize = 1 := hitem
  cases dims with
  | nil => cases h
  | cons d dims =>
    cases h
    refine ⟨1 * (dims.map Prod.fst).prod, ?_, fun h0 => ?_, fun k => ⟨_, rfl, rfl, rfl⟩⟩
    · rw [hdata, List.map_cons, List.prod_cons, Nat.mul_left_comm]
    · rw [Nat.one_mul]
      exact Nat.pos_of_ne_zero fun hrow => h0 (List.prod_eq_zero_iff.1 hrow)

theorem adjust_zero (buffers : List ShapedView) : adjustLeftoverBuffer buffers 0 = .ok buffers := by
  unfold adjustLeftoverBuffer
  rw [if_pos rfl]

/-- What the loop does with a view. -/
theorem adjust_cons (hn : 0 < n) : adjustLeftoverBuffer (b :: buffers) n =
    b.inBytes.bind fun b => b.len.bind fun bLen =>
      if bLen ≤ n then adjustLeftoverBuffer buffers (n - bLen)
      else (b.drop n).map (· :: buffers) := by
  rw [adjustLeftoverBuffer, if_neg hn.ne']
  rw [← inBytes]
  rcases hv : b.inBytes with e | v
  · rfl
  · rfl

/-- **Step lemma.**  A view that is counted in bytes is removed when all of it has been sent, and
    loses its first bytes otherwise. -/
theorem adjust_of_counts (hn : 0 < n) (hb : b.CountsBytes) :
    (b.data.length ≤ n →
      adjustLeftoverBuffer (b :: buffers) n = adjustLeftoverBuffer buffers (n - b.data.length)) ∧
    (n < b.data.length → ∃ w, adjustLeftoverBuffer (b :: buffers) n = .ok (w :: buffers) ∧
      w.itemsize = 1 ∧ w.data = b.data.drop n) := by
  obtain ⟨v, hv, hlen⟩ := countsBytes_iff.1 hb
  obtain ⟨hitem, hdata, -⟩ := inBytes_spec hv
  obtain ⟨row, hrow, -, hdrop⟩ := drop_spec hlen hitem
  have hadjust : adjustLeftoverBuffer (b :: buffers) n =
      if b.data.length ≤ n then adjustLeftoverBuffer buffers (n - b.data.length)
      else (v.drop n).map (· :: buffers) := by
    rw [adjust_cons hn, hv, Except.bind, hlen, Except.bind]
  refine ⟨fun hle => by rw [hadjust, if_pos hle], fun hlt => ?_⟩
  obtain ⟨w, hw, hwitem, hwdata⟩ := hdrop n
  have hone : row = 1 := by
    rw [hdata] at hrow
    exact Nat.eq_of_mul_eq_mul_left (Nat.zero_lt_of_lt hlt) (by rw [← hrow, Nat.mul_one])
  refine ⟨w, ?_, hwitem, ?_⟩
  · rw [hadjust, if_neg hlt.not_ge, hw]
    rfl
  · rw [hwdata, hdata, hone, Nat.mul_one]

/-- **Step lemma.**  What a view of `bLen` rows loses. -/
theorem adjust_cases (hn : 0 < n) (h : adjustLeftoverBuffer (b :: buffers) n = .ok left) :
    ∃ bLen row, b.data.length = bLen * row ∧ (b.HasRows → 0 < row) ∧
      (b.CountsBytes ↔ bLen = b.data.length) ∧
      ((bLen ≤ n ∧ adjustLeftoverBuffer buffers (n - bLen) = .ok left) ∨
        ∃ w, n < bLen ∧ left = w :: buffers ∧ w.data = b.data.drop (n * row)) := by
  rw [adjust_cons hn] at h
  obtain ⟨v, hv, h⟩ := MapM.bind_eq_ok h
  obtain ⟨bLen, hlen, h⟩ := MapM.bind_eq_ok h
  obtain ⟨hitem, hdata, hrows⟩ := inBytes_spec hv
  obtain ⟨row, hrow, hpos, hdrop⟩ := drop_spec hlen hitem
  rw [hdata] at hrow
  refine ⟨bLen, row, hrow, fun hb => hpos (hrows hb), ?_, ?_⟩
  · rw [countsBytes_iff]
    constructor
    · rintro ⟨v', hv', hlen'⟩
      cases hv.symm.trans hv'
      exact Except.ok.inj (hlen.symm.trans hlen')
    · intro heq
      exact ⟨v, hv, heq ▸ hlen⟩
  · split_ifs at h with hle
    · exact .inl ⟨hle, h⟩
    · obtain ⟨w, hw, -, hwdata⟩ := hdrop n
      rw [hw] at h
      cases h
      exact .inr ⟨w, not_le.1 hle, rfl, by rw [hwdata, hdata]⟩

end

/-! ## All views -/

section
variable {b : ShapedView} {buffers pre rest left : List ShapedView} {n : ℕ}

theorem countsBefore_cons : CountsBefore (b :: buffers) n ↔
    (0 < n → b.CountsBytes) ∧ CountsBefore buffers (n - b.data.length) := by
  constructor
  · intro h
    refine ⟨fun hn => h [] b buffers rfl hn, fun pre c post hsplit hlt => ?_⟩
    refine h (b :: pre) c post (congrArg _ hsplit) ?_
    rw [bytes_cons, List.length_append]
    omega
  · rintro ⟨hb, hrest⟩ pre c post hsplit hlt
    cases pre with
    | nil =>
      cases hsplit
      exact hb (Nat.zero_lt_of_lt hlt)
    | cons d pre =>
      cases hsplit
      refine hrest pre c post rfl ?_
      rw [bytes_cons, List.length_append] at hlt
      omega

/-- A view in the model of the transports, which is one-dimensional. -/
def toMemoryView (v : ShapedView) : MemoryView := ⟨v.itemsize, v.data⟩

theorem bytes_eq (buffers : List ShapedView) :
    bytes buffers = (contents (buffers.map toMemoryView)).flatten := by
  rw [contents, List.map_map, bytes, List.flatMap_def]
  rfl

/-- **The views that are counted in bytes are those of the model of the transports.** -/
theorem adjustLeftoverBuffer_toMemoryView (hn : n ≤ (bytes buffers).length)
    (hc : CountsBefore buffers n) : ∃ left, adjustLeftoverBuffer buffers n = .ok left ∧
      EasyNetwork.adjustLeftoverBuffer (buffers.map toMemoryView) n =
        .ok (left.map toMemoryView) := by
  induction buffers generalizing n with
  | nil =>
    obtain rfl : n = 0 := Nat.le_zero.1 hn
    exact ⟨[], rfl, rfl⟩
  | cons b buffers ih =>
    obtain ⟨hb, hrest⟩ := countsBefore_cons.1 hc
    rcases Nat.eq_zero_or_pos n with rfl | hpos
    · refine ⟨b :: buffers, adjust_zero _, ?_⟩
      rw [List.map_cons, EasyNetwork.adjustLeftoverBuffer, if_pos rfl]
    rw [bytes_cons, List.length_append] at hn
    obtain ⟨hpop, hcut⟩ := adjust_of_counts hpos (hb hpos)
    rw [List.map_cons, EasyNetwork.adjustLeftoverBuffer, if_neg hpos.ne', cast_eq]
    simp only [MemoryView.len, MemoryView.ofBytes, toMemoryView, Nat.div_one]
    by_cases hle : b.data.length ≤ n
    · rw [hpop hle, if_pos hle]
      exact ih (by omega) hrest
    · obtain ⟨w, hw, hwitem, hwdata⟩ := hcut (not_le.1 hle)
      refine ⟨w :: buffers, hw, ?_⟩
      rw [if_neg hle, List.map_cons, toMemoryView, hwitem, hwdata, MemoryView.drop, Nat.mul_one]

/-- The views before the `n`-th byte are popped. -/
theorem adjust_append (hc : CountsBefore (pre ++ rest) n) (hlt : (bytes pre).length < n) :
    adjustLeftoverBuffer (pre ++ rest) n =
      adjustLeftoverBuffer rest (n - (bytes pre).length) := by
  induction pre generalizing n with
  | nil => rfl
  | cons b pre ih =>
    obtain ⟨hb, hrest⟩ := countsBefore_cons.1 hc
    rw [bytes_cons, List.length_append] at hlt ⊢
    have hpos : 0 < n := by omega
    rw [List.cons_append, (adjust_of_counts hpos (hb hpos)).1 (by omega), ih hrest (by omega),
      Nat.sub_sub]

theorem dropsSent_of_counts (hn : n ≤ (bytes buffers).length) (hc : CountsBefore buffers n) :
    DropsSent buffers n := by
  obtain ⟨left, hleft, hmodel⟩ := adjustLeftoverBuffer_toMemoryView hn hc
  refine ⟨left, hleft, ?_, fun pre b post hsplit hlt hle => ?_⟩
  · rw [bytes_eq] at hn
    obtain ⟨buffers', hmodel', hcontents⟩ := EasyNetwork.adjustLeftoverBuffer_eq hn
    cases hmodel.symm.trans hmodel'
    rw [bytes_eq, hcontents, flatten_consume, ← bytes_eq]
  · subst hsplit
    have hb : b.CountsBytes := hc pre b post rfl hlt
    rw [adjust_append hc hlt] at hleft
    obtain ⟨hpop, hcut⟩ := adjust_of_counts (Nat.sub_pos_of_lt hlt) hb
    rcases Nat.lt_or_ge (n - (bytes pre).length) b.data.length with hless | hmore
    · obtain ⟨w, hw, -⟩ := hcut hless
      cases hleft.symm.trans hw
      exact ⟨[w], rfl, le_rfl⟩
    · have hnone : n - (bytes pre).length - b.data.length = 0 := by omega
      rw [hpop hmore, hnone, adjust_zero] at hleft
      cases hleft
      exact ⟨[], rfl, Nat.zero_le 1⟩

theorem countsBefore_zero (buffers : List ShapedView) : CountsBefore buffers 0 :=
  fun _ _ _ _ hlt => absurd hlt (Nat.not_lt_zero _)

theorem CountsBefore.mono {m : ℕ} (h : CountsBefore buffers n) (hm : m ≤ n) :
    CountsBefore buffers m :=
  fun pre b post hsplit hlt => h pre b post hsplit (hlt.trans_le hm)

/-- A view that loses its first byte alone is counted in bytes. -/
theorem counts_of_first (hn : 1 ≤ (bytes (b :: buffers)).length)
    (hleft : adjustLeftoverBuffer (b :: buffers) 1 = .ok left)
    (hbytes : bytes left = (bytes (b :: buffers)).drop 1) : b.CountsBytes := by
  obtain ⟨bLen, row, hrow, -, hcounts, hcase⟩ := adjust_cases Nat.one_pos hleft
  have hlength := congrArg List.length hbytes
  rw [List.length_drop, bytes_cons, List.length_append] at hlength
  rw [bytes_cons, List.length_append] at hn
  rw [hcounts]
  rcases hcase with ⟨hle, hrest⟩ | ⟨w, hlt, rfl, hw⟩
  · rcases Nat.le_one_iff_eq_zero_or_eq_one.1 hle with rfl | rfl
    · rw [hrow, Nat.zero_mul]
    · cases (adjust_zero buffers).symm.trans hrest
      omega
  · rw [bytes_cons, List.length_append, hw, List.length_drop, Nat.one_mul] at hlength
    have hone : row = 1 := by
      rcases Nat.eq_zero_or_pos row with rfl | hpos
      · omega
      · have hle : row ≤ bLen * row := Nat.le_mul_of_pos_left row (by omega)
        omega
    rw [hrow, hone, Nat.mul_one]

/-- When the first bytes are always dropped, the views are counted in bytes. -/
theorem counts_of_drops (h : ∀ n ≤ (bytes buffers).length, ∃ left,
      adjustLeftoverBuffer buffers n = .ok left ∧ bytes left = (bytes buffers).drop n) :
    CountsBefore buffers (bytes buffers).length := by
  induction buffers with
  | nil => exact countsBefore_zero []
  | cons b buffers ih =>
    have hb : 0 < (bytes (b :: buffers)).length → b.CountsBytes := by
      intro hpos
      obtain ⟨left, hleft, hbytes⟩ := h 1 hpos
      exact counts_of_first hpos hleft hbytes
    rw [countsBefore_cons, bytes_cons, List.length_append, Nat.add_sub_cancel_left]
    rw [bytes_cons, List.length_append] at h hb
    refine ⟨hb, ih fun m hm => ?_⟩
    rcases Nat.eq_zero_or_pos (b.data.length + m) with h0 | hpos
    · obtain rfl : m = 0 := by omega
      exact ⟨buffers, adjust_zero buffers, rfl⟩
    · obtain ⟨left, hleft, hbytes⟩ := h (b.data.length + m) (by omega)
      rw [(adjust_of_counts hpos (hb (by omega))).1 (by omega), Nat.add_sub_cancel_left] at hleft
      rw [List.drop_append, List.drop_eq_nil_of_le (by omega), List.nil_append,
        Nat.add_sub_cancel_left] at hbytes
      exact ⟨left, hleft, hbytes⟩

/-- Without empty rows, not less than what is sent is dropped. -/
theorem le_dropped (hrows : ∀ b ∈ buffers, b.HasRows)
    (hleft : adjustLeftoverBuffer buffers n = .ok left) :
    ∃ k, n ≤ k ∧ k ≤ (bytes buffers).length ∧ bytes left = (bytes buffers).drop k ∧
      (k = n → CountsBefore buffers n) := by
  induction buffers generalizing n with
  | nil =>
    rw [adjustLeftoverBuffer] at hleft
    split_ifs at hleft with h0
    subst h0
    cases hleft
    exact ⟨0, le_rfl, le_rfl, rfl, fun _ => countsBefore_zero []⟩
  | cons b buffers ih =>
    rcases Nat.eq_zero_or_pos n with rfl | hpos
    · cases (adjust_zero (b :: buffers)).symm.trans hleft
      exact ⟨0, le_rfl, Nat.zero_le _, rfl, fun _ => countsBefore_zero _⟩
    obtain ⟨bLen, row, hrow, hpositive, hcounts, hcase⟩ := adjust_cases hpos hleft
    have hrow1 : 0 < row := hpositive (hrows b List.mem_cons_self)
    have hle : bLen ≤ b.data.length := hrow ▸ Nat.le_mul_of_pos_right bLen hrow1
    rw [bytes_cons, List.length_append]
    rcases hcase with ⟨-, hrest⟩ | ⟨w, hlt, rfl, hw⟩
    · obtain ⟨k, hk, hkle, hbytes, hexact⟩ :=
        ih (fun c hc => hrows c (List.mem_cons_of_mem b hc)) hrest
      refine ⟨b.data.length + k, by omega, by omega, ?_, fun heq => ?_⟩
      · rw [List.drop_append, List.drop_eq_nil_of_le (by omega), List.nil_append,
          Nat.add_sub_cancel_left, hbytes]
      · have hlen : bLen = b.data.length := by omega
        refine countsBefore_cons.2 ⟨fun _ => hcounts.2 hlen, ?_⟩
        rw [← hlen]
        exact hexact (by omega)
    · have hcut : n * row ≤ b.data.length := hrow ▸ Nat.mul_le_mul_right row hlt.le
      refine ⟨n * row, Nat.le_mul_of_pos_right n hrow1, by omega, ?_, fun heq => ?_⟩
      · rw [bytes_cons, hw, List.drop_append_of_le_length hcut]
      · have hone : row = 1 := Nat.eq_of_mul_eq_mul_left hpos (by rw [heq, Nat.mul_one])
        have hlen : bLen = b.data.length := by rw [hrow, hone, Nat.mul_one]
        refine countsBefore_cons.2 ⟨fun _ => hcounts.2 hlen, ?_⟩
        have hnone : n - b.data.length = 0 := by omega
        rw [hnone]
        exact countsBefore_zero buffers

end

/-- **The sent bytes are dropped, whatever has been sent, iff the views before the last byte are
    counted in bytes.**  For one `n`, it is enough that those before the `n`-th byte are; this is
    necessary, too, unless there are rows without bytes, which may make up for others. -/
theorem adjustLeftoverBuffer_iff (buffers : List ShapedView) :
    ((∀ n ≤ (bytes buffers).length, DropsSent buffers n) ↔
      CountsBefore buffers (bytes buffers).length) ∧
    ∀ n ≤ (bytes buffers).length, (CountsBefore buffers n → DropsSent buffers n) ∧
      ((∀ b ∈ buffers, b.HasRows) → (DropsSent buffers n ↔ CountsBefore buffers n)) := by
  refine ⟨⟨fun h => ?_, fun h n hn => dropsSent_of_counts hn (h.mono hn)⟩, fun n hn =>
    ⟨dropsSent_of_counts hn, fun hrows => ⟨?_, dropsSent_of_counts hn⟩⟩⟩
  · refine counts_of_drops fun n hn => ?_
    obtain ⟨left, hleft, hbytes, -⟩ := h n hn
    exact ⟨left, hleft, hbytes⟩
  · rintro ⟨left, hleft, hbytes, -⟩
    obtain ⟨k, hk, hkle, hdropped, hexact⟩ := le_dropped hrows hleft
    have hlength := congrArg List.length (hdropped.symm.trans hbytes)
    rw [List.length_drop, List.length_drop] at hlength
    exact hexact (by omega)

/-- One-dimensional views are counted in bytes, whatever their items are. -/
theorem countsBytes_of_oneDim {b : ShapedView} (hdim : b.dims.length = 1)
    (hcontiguous : b.itemsize ≠ 1 → b.cContiguous = true) : b.CountsBytes := by
  rw [CountsBytes]
  split_ifs with hitem
  · obtain ⟨d, hd⟩ := List.length_eq_one_iff.1 hdim
    have hlength := b.length_data
    rw [hitem, hd, List.map_singleton, List.prod_singleton, Nat.one_mul] at hlength
    rw [shape, hd, List.map_singleton, List.head?_cons, hlength]
  · exact ⟨hcontiguous hitem, .inl hdim⟩

/-- Two integers and two bytes: whatever has been sent is dropped, such as the first five bytes. -/
theorem integers_dropped :
    let buffers : List ShapedView := [⟨4, [(2, 4)], [1, 0, 0, 0, 2, 0, 0, 0], rfl⟩, .ofBytes [97, 98]]
    (∀ n ≤ 10, DropsSent buffers n) ∧
      adjustLeftoverBuffer buffers 5 = .ok [⟨1, [(3, 1)], [0, 0, 0], rfl⟩, .ofBytes [97, 98]] := by
  intro buffers
  refine ⟨(adjustLeftoverBuffer_iff buffers).1.2 fun pre b post hsplit _ => ?_, rfl⟩
  have hmem : b ∈ buffers := hsplit ▸ List.mem_append_right _ List.mem_cons_self
  simp only [buffers, List.mem_cons, List.not_mem_nil, or_false] at hmem
  rcases hmem with rfl | rfl
  · exact countsBytes_of_oneDim rfl fun _ => rfl
  · exact countsBytes_of_oneDim rfl fun _ => rfl

/-- `memoryview(b"abcdef").cast("B", (2, 3))`: all of its bytes have been sent, and it counts as two
    of them. -/
theorem rows_not_dropped : ∃ view : ShapedView, view.itemsize = 1 ∧ view.shape = [2, 3] ∧
    view.data = [97, 98, 99, 100, 101, 102] ∧
    adjustLeftoverBuffer [view] 6 = .error (.indexError "pop from an empty deque") ∧
    ¬ DropsSent [view] 6 := by
  refine ⟨⟨1, [(2, 3), (3, 1)], [97, 98, 99, 100, 101, 102], rfl⟩, rfl, rfl, rfl, rfl, ?_⟩
  rintro ⟨left, hleft, -⟩
  cases hleft

end ShapedView

end EasyNetwork
