import Mathlib.Algebra.Group.Nat.Defs
import Mathlib.Tactic.Common
import Tntpp.Base.Transition
import Tntpp.Detail.MutableBuffer

/-!
# The receive buffer over whole histories

`MutableBuffer` as its owner uses it: any sequence of `prepare`, writing behind
`get_receive_buffer`, `advance_reader` and `clear`.  A history carries, beside the
buffer, what its users have seen of it: the bytes written and the bytes consumed
since it was last cleared, and every frozen buffer handed out, with the bytes it
held then.

The size of a new allocation is a sum that the source computes in `size_t`.  It is
the one place where the width of the type shows, so `prepare` is given again here,
with the sum modulo `2 ^ 64`; where the sum fits, the two are the same function.
-/

namespace Tntpp

open Transition

/-- `FrozenBuffer::slice`; without a `length` it is the rest of the buffer.  Only
`start` is checked. -/
def FrozenBuffer.sliceLength (f : FrozenBuffer) (start : Nat) (length : Option Nat) :
    Option FrozenBuffer :=
  if start < f.size then
    some { f with data := f.data + start, size := length.getD (f.size - start) }
  else none

theorem FrozenBuffer.sliceLength_none (f : FrozenBuffer) (start : Nat) :
    f.sliceLength start none = f.slice start := rfl

/-- A slice that ends within the buffer reads the bytes of the buffer there. -/
theorem FrozenBuffer.sliceLength_spec {f : FrozenBuffer} {start : Nat} {length : Option Nat}
    (h : start < f.size) (hlen : start + length.getD (f.size - start) ≤ f.size)
    (m : MutableBuffer) :
    ∃ g, f.sliceLength start length = some g ∧
      m.view g = ((m.view f).drop start).take (length.getD (f.size - start)) := by
  refine ⟨_, if_pos h, ?_⟩
  simp only [MutableBuffer.view]
  cases f.buf.bind fun i ↦ m.blocks[i]? with
  | none => simp
  | some b =>
      simp only [Block.slice, List.drop_take, List.drop_drop, List.take_take]
      congr 1
      omega

namespace MutableBuffer

/-- `prepare`, with the size of the new allocation computed in `size_t`. -/
def prepareSizeT (m : MutableBuffer) (bytes : Nat) : Option MutableBuffer :=
  if m.buffer.free ≥ bytes then some m
  else do
    let (new, old) ←
      (SharedBuffer.new ((m.buffer.ready + bytes + m.defaultLength) % 2 ^ 64)).copyRestFrom m.buffer
    return { m with retired := m.retired ++ [old], buffer := new }

/-- `get_receive_buffer` over it. -/
def getReceiveBufferSizeT (m : MutableBuffer) : Option (Nat × MutableBuffer) := do
  let m ← if m.buffer.free = 0 then m.prepareSizeT m.defaultLength else some m
  return (m.buffer.free, m)

/-- The size of the allocation that `prepare` makes, if it makes one, is a `size_t`. -/
def Fits (m : MutableBuffer) (bytes : Nat) : Prop :=
  m.buffer.free < bytes → m.buffer.ready + bytes + m.defaultLength < 2 ^ 64

instance (m : MutableBuffer) (bytes : Nat) : Decidable (m.Fits bytes) :=
  inferInstanceAs (Decidable (_ → _))

theorem prepareSizeT_eq {m : MutableBuffer} {n : Nat} (h : m.Fits n) :
    m.prepareSizeT n = m.prepare n := by
  rw [prepareSizeT, prepare]
  split_ifs with hfree
  · rfl
  · rw [Nat.mod_eq_of_lt (h (Nat.lt_of_not_le hfree))]

theorem getReceiveBufferSizeT_eq {m : MutableBuffer}
    (h : m.buffer.free = 0 → m.Fits m.defaultLength) :
    m.getReceiveBufferSizeT = m.getReceiveBuffer := by
  rw [getReceiveBufferSizeT, getReceiveBuffer]
  split_ifs with hfree
  · rw [prepareSizeT_eq (h hfree)]
  · rfl

/-- A sum that leaves `size_t` gives an allocation that is too small. -/
theorem free_lt_of_not_fits {m m' : MutableBuffer} {n : Nat} (hd : m.defaultLength < 2 ^ 64)
    (h : ¬ m.Fits n) (hm' : m.prepareSizeT n = some m') : m'.buffer.free < n := by
  obtain ⟨hfree, hsum⟩ := Classical.not_imp.mp h
  have hmod : (m.buffer.ready + n + m.defaultLength) % 2 ^ 64 < m.buffer.ready + n := by
    have hsub := Nat.mod_eq_sub_mod (Nat.le_of_not_lt hsum)
    have hle := Nat.mod_le (m.buffer.ready + n + m.defaultLength - 2 ^ 64) (2 ^ 64)
    omega
  rw [prepareSizeT, if_neg (Nat.not_le_of_lt hfree)] at hm'
  -- if the assertion of `copy_rest_from` fails there is no buffer at all
  by_cases hlt : m.buffer.ready < (m.buffer.ready + n + m.defaultLength) % 2 ^ 64
  · obtain ⟨new, old, hcopy, -, hs, hw, -, -⟩ := SharedBuffer.copyRestFrom_spec hlt
    rw [hcopy] at hm'
    obtain rfl := Option.some.inj hm'
    rw [SharedBuffer.free, hs, hw]
    omega
  · have hcopy : (SharedBuffer.new ((m.buffer.ready + n + m.defaultLength) % 2 ^ 64)).copyRestFrom
        m.buffer = none := if_neg hlt
    rw [hcopy] at hm'
    cases hm'

end MutableBuffer

/-- One use of the receive buffer by its owner. -/
inductive BufferOp where
  /-- Call `prepare`. -/
  | prepare (bytes : UInt64)
  /-- Write at the start of what `get_receive_buffer` returns, and advance the writer. -/
  | write (bs : List UInt8)
  /-- Call `advance_reader`. -/
  | advanceReader (bytes : Nat)
  /-- Call `clear`. -/
  | clear
deriving DecidableEq, Repr

/-- A buffer and what its users have seen of it. -/
structure BufferHistory where
  /-- The buffer. -/
  buffer : MutableBuffer
  /-- The bytes `advance_reader` returned since the last `clear`. -/
  consumed : List UInt8
  /-- The bytes written since then. -/
  written : List UInt8
  /-- Every frozen buffer that was returned, with the bytes it held then. -/
  returned : List (FrozenBuffer × List UInt8)

namespace BufferHistory

/-- A fresh buffer. -/
def new (defaultLength : UInt64) : BufferHistory :=
  ⟨MutableBuffer.new defaultLength.toNat, [], [], []⟩

/-- One use of the buffer; `none` if an assertion fails. -/
def step (s : BufferHistory) : BufferOp → Option BufferHistory
  | .prepare bytes => do
      let m ← s.buffer.prepareSizeT bytes.toNat
      return { s with buffer := m }
  | .write bs => do
      let (_, m) ← s.buffer.getReceiveBufferSizeT
      let m ← m.receive bs
      let m ← m.advanceWriter bs.length
      return { s with buffer := m, written := s.written ++ bs }
  | .advanceReader bytes => do
      let (f, m) ← s.buffer.advanceReader bytes
      return { s with
        buffer := m
        consumed := s.consumed ++ m.view f
        returned := (f, m.view f) :: s.returned }
  | .clear => some { s with buffer := s.buffer.clear, consumed := [], written := [] }

/-- What a caller has to keep to: no more bytes are written than
`get_receive_buffer` has room for, and no more consumed than are ready. -/
def Allowed (s : BufferHistory) : BufferOp → Prop
  | .prepare _ => True
  | .write bs => ∀ r ∈ s.buffer.getReceiveBufferSizeT, bs.length ≤ r.1
  | .advanceReader bytes => bytes ≤ s.buffer.ready
  | .clear => True

/-- The state keeps its promises: first in, first out, and what was returned frozen
still reads the same, as does each slice of it. -/
structure Sound (s : BufferHistory) : Prop where
  fifo : s.consumed ++ s.buffer.unread = s.written
  frozen : ∀ r ∈ s.returned, s.buffer.view r.1 = r.2
  sliced : ∀ r ∈ s.returned, ∀ start length, start < r.1.size →
    start + length.getD (r.1.size - start) ≤ r.1.size →
    ∃ g, r.1.sliceLength start length = some g ∧
      s.buffer.view g = (r.2.drop start).take (length.getD (r.1.size - start))

/-- The step keeps the promises that its operation makes: no assertion fails, room is
made as documented, and the state is sound afterwards. -/
def Kept (s : BufferHistory) (op : BufferOp) : Prop :=
  (∃ s', s.step op = some s' ∧ s'.Sound) ∧
    match op with
    | .prepare bytes => ∃ m, s.buffer.prepareSizeT bytes.toNat = some m ∧
        m.unread = s.buffer.unread ∧ bytes.toNat ≤ m.buffer.free
    | .write _ => ∃ r m, s.buffer.getReceiveBufferSizeT = some (r, m) ∧
        m.unread = s.buffer.unread ∧ (0 < s.buffer.defaultLength → 0 < r) ∧
        (s.buffer.buffer.free = 0 → s.buffer.defaultLength ≤ r)
    | .advanceReader _ => True
    | .clear => True

/-- Every allocation that the step makes has a size that fits in `size_t`. -/
def Fits (s : BufferHistory) : BufferOp → Prop
  | .prepare bytes => s.buffer.Fits bytes.toNat
  | .write _ => s.buffer.buffer.free = 0 → s.buffer.Fits s.buffer.defaultLength
  | .advanceReader _ => True
  | .clear => True

instance (s : BufferHistory) : ∀ op, Decidable (s.Allowed op)
  | .prepare _ => .isTrue trivial
  | .write bs => inferInstanceAs (Decidable (∀ r ∈ s.buffer.getReceiveBufferSizeT, bs.length ≤ r.1))
  | .advanceReader bytes => inferInstanceAs (Decidable (bytes ≤ s.buffer.ready))
  | .clear => .isTrue trivial

instance (s : BufferHistory) : ∀ op, Decidable (s.Fits op)
  | .prepare bytes => inferInstanceAs (Decidable (s.buffer.Fits bytes.toNat))
  | .write _ => inferInstanceAs (Decidable (_ → s.buffer.Fits s.buffer.defaultLength))
  | .advanceReader _ => .isTrue trivial
  | .clear => .isTrue trivial

/-! ## Every step keeps the promises if its allocations fit -/

/-- What holds between two steps. -/
structure Inv (s : BufferHistory) : Prop where
  defaultLength_lt : s.buffer.defaultLength < 2 ^ 64
  fifo : s.consumed ++ s.buffer.unread = s.written
  frozen : ∀ r ∈ s.returned, s.buffer.Frozen r.1 ∧ s.buffer.view r.1 = r.2

theorem Inv.new (defaultLength : UInt64) : (new defaultLength).Inv where
  defaultLength_lt := defaultLength.toNat_lt
  fifo := rfl
  frozen := by
    rintro r ⟨⟩

theorem Inv.sound {s : BufferHistory} (h : s.Inv) : s.Sound where
  fifo := h.fifo
  frozen r hr := (h.frozen r hr).2
  sliced := by
    intro r hr start length hstart hlen
    obtain ⟨g, hg, hview⟩ := FrozenBuffer.sliceLength_spec hstart hlen s.buffer
    exact ⟨g, hg, (h.frozen r hr).2 ▸ hview⟩

/-- The invariant survives any change of the buffer that keeps its allocations and
accounts for its bytes. -/
theorem Inv.of_keeps {s : BufferHistory} (h : s.Inv) {m : MutableBuffer} {consumed written : List UInt8}
    (hk : s.buffer.Keeps m) (hd : m.defaultLength = s.buffer.defaultLength)
    (hfifo : consumed ++ m.unread = written) : Inv ⟨m, consumed, written, s.returned⟩ where
  defaultLength_lt := hd ▸ h.defaultLength_lt
  fifo := hfifo
  frozen := by
    intro r hr
    obtain ⟨hf, hv⟩ := h.frozen r hr
    exact ⟨hk.frozen hf, (hk.view_eq hf).trans hv⟩

variable {s : BufferHistory}

theorem step_prepare (h : s.Inv) {n : UInt64} (hfits : s.buffer.Fits n.toNat) :
    ∃ m, s.buffer.prepareSizeT n.toNat = some m ∧ m.unread = s.buffer.unread ∧
      n.toNat ≤ m.buffer.free ∧ s.step (.prepare n) = some { s with buffer := m } ∧
      Inv { s with buffer := m } := by
  obtain ⟨m, hm, hu, hfree, hd, hk⟩ := s.buffer.prepare_spec n.toNat
  rw [← MutableBuffer.prepareSizeT_eq hfits] at hm
  refine ⟨m, hm, hu, hfree, ?_, h.of_keeps hk hd (hu ▸ h.fifo)⟩
  simp only [step, hm]
  rfl

theorem step_write (h : s.Inv) {bs : List UInt8} (hallowed : s.Allowed (.write bs))
    (hfits : s.Fits (.write bs)) :
    ∃ r m s', s.buffer.getReceiveBufferSizeT = some (r, m) ∧ m.unread = s.buffer.unread ∧
      (0 < s.buffer.defaultLength → 0 < r) ∧
      (s.buffer.buffer.free = 0 → s.buffer.defaultLength ≤ r) ∧
      s.step (.write bs) = some s' ∧ Inv s' := by
  have heq := MutableBuffer.getReceiveBufferSizeT_eq hfits
  obtain ⟨m, hm, hu, -, hpos, hd, hk⟩ := s.buffer.getReceiveBuffer_spec
  have hfree : bs.length ≤ m.buffer.free := hallowed _ (heq.trans hm)
  obtain ⟨m₁, m₂, hm₁, hm₂, hu₂, hd₂, hk₂⟩ := MutableBuffer.receive_advanceWriter_spec hfree
  refine ⟨m.buffer.free, m, ⟨m₂, s.consumed, s.written ++ bs, s.returned⟩, heq.trans hm, hu, hpos,
    ?_, ?_, ?_⟩
  · intro hzero
    obtain ⟨m', hm', -, hle, -⟩ := s.buffer.prepare_spec s.buffer.defaultLength
    rw [MutableBuffer.getReceiveBuffer, if_pos hzero, hm'] at hm
    obtain ⟨-, rfl⟩ := Prod.mk.inj (Option.some.inj hm)
    exact hle
  · simp only [step, heq.trans hm, Option.bind_eq_bind, Option.bind_some, hm₁, hm₂]
    rfl
  · apply h.of_keeps (hk.trans hk₂) (hd₂.trans hd)
    rw [hu₂, hu, ← List.append_assoc, h.fifo]

theorem step_advanceReader (h : s.Inv) {n : Nat} (hn : n ≤ s.buffer.ready) :
    ∃ s', s.step (.advanceReader n) = some s' ∧ Inv s' := by
  obtain ⟨f, m, hm, -, hf, hview, hu, hd, hk⟩ := MutableBuffer.advanceReader_spec hn
  have hinv : Inv ⟨m, s.consumed ++ m.view f, s.written, s.returned⟩ := by
    apply h.of_keeps hk hd
    rw [hview, hu, List.append_assoc, List.take_append_drop, h.fifo]
  refine ⟨⟨m, s.consumed ++ m.view f, s.written, (f, m.view f) :: s.returned⟩, ?_,
    hinv.defaultLength_lt, hinv.fifo, ?_⟩
  · simp only [step, hm]
    rfl
  · rintro r (- | ⟨-, hr⟩)
    · exact ⟨hf, rfl⟩
    · exact hinv.frozen r hr

theorem step_clear (h : s.Inv) : ∃ s', s.step .clear = some s' ∧ Inv s' := by
  obtain ⟨hu, hd, hk⟩ := s.buffer.clear_spec
  exact ⟨_, rfl, h.of_keeps hk hd hu⟩

/-- An allowed step whose allocations fit succeeds. -/
theorem step_spec (h : s.Inv) {op : BufferOp} (hallowed : s.Allowed op) (hfits : s.Fits op) :
    ∃ s', s.step op = some s' ∧ s'.Inv := by
  cases op with
  | prepare n =>
      obtain ⟨m, -, -, -, hstep, hinv⟩ := step_prepare h hfits
      exact ⟨_, hstep, hinv⟩
  | write bs =>
      obtain ⟨r, m, s', -, -, -, -, hstep, hinv⟩ := step_write h hallowed hfits
      exact ⟨s', hstep, hinv⟩
  | advanceReader n => exact step_advanceReader h hallowed
  | clear => exact step_clear h

theorem kept_of_fits (h : s.Inv) {op : BufferOp} (hallowed : s.Allowed op) (hfits : s.Fits op) :
    s.Kept op := by
  obtain ⟨s', hstep, hinv⟩ := step_spec h hallowed hfits
  refine ⟨⟨s', hstep, hinv.sound⟩, ?_⟩
  cases op with
  | prepare n =>
      obtain ⟨m, hm, hu, hfree, -⟩ := step_prepare h hfits
      exact ⟨m, hm, hu, hfree⟩
  | write bs =>
      obtain ⟨r, m, -, hr, hu, hpos, hle, -⟩ := step_write h hallowed hfits
      exact ⟨r, m, hr, hu, hpos, hle⟩
  | advanceReader n => trivial
  | clear => trivial

/-- A step that keeps its promises makes only allocations that fit: the others are
too small for what was asked. -/
theorem fits_of_kept (h : s.Inv) {op : BufferOp} (hkept : s.Kept op) : s.Fits op := by
  cases op with
  | prepare n =>
      obtain ⟨-, m, hm, -, hfree⟩ := hkept
      by_contra hfits
      exact absurd (MutableBuffer.free_lt_of_not_fits h.defaultLength_lt hfits hm)
        (Nat.not_lt_of_le hfree)
  | write bs =>
      obtain ⟨-, r, m, hr, -, -, hle⟩ := hkept
      intro hzero
      by_contra hfits
      rw [MutableBuffer.getReceiveBufferSizeT, if_pos hzero] at hr
      obtain ⟨m', hm', hr⟩ := Option.bind_eq_some_iff.mp hr
      cases hr
      exact absurd (MutableBuffer.free_lt_of_not_fits h.defaultLength_lt hfits hm')
        (Nat.not_lt_of_le (hle hzero))
  | advanceReader n => trivial
  | clear => trivial

/-- In every history that keeps to the rules of the buffer, every step keeps its
promises if and only if every allocation has a size that `size_t` can hold. -/
theorem kept_iff_fits (defaultLength : UInt64) (ops : List BufferOp)
    (hallowed : Meets step Allowed (new defaultLength) ops) :
    Meets step Kept (new defaultLength) ops ↔ Meets step Fits (new defaultLength) ops := by
  refine meets_iff_meets (I := Inv) ?_ ?_ hallowed (Inv.new defaultLength)
  · intro s op hop h
    exact ⟨fits_of_kept h, kept_of_fits h hop⟩
  · intro s op s' hop hfits hstep h
    obtain ⟨t, ht, hinv⟩ := step_spec h hop hfits
    exact Option.some.inj (ht.symm.trans hstep) ▸ hinv

/-- A message received in two parts, the first consumed before a reallocation. -/
def twoParts : List BufferOp :=
  [.write [1, 2], .advanceReader 1, .prepare 8, .write [3, 4, 5], .advanceReader 4, .clear]

theorem kept_twoParts : Meets step Kept (new 2) twoParts :=
  (kept_iff_fits 2 twoParts (by decide)).mpr (by decide)

/-- In a buffer of the usual length, `prepare` of as many bytes as a `size_t` can say
makes room for 4095. -/
theorem prepare_wraps :
    Meets step Allowed (new 4096) [.prepare 0xffffffffffffffff] ∧
      (∃ m, (new 4096).buffer.prepareSizeT (2 ^ 64 - 1) = some m ∧ m.buffer.free = 4095) ∧
      ¬ Meets step Kept (new 4096) [.prepare 0xffffffffffffffff] := by
  refine ⟨⟨trivial, fun _ _ ↦ trivial⟩, ⟨_, rfl, rfl⟩, ?_⟩
  rintro ⟨hkept, -⟩
  exact absurd (fits_of_kept (Inv.new 4096) hkept) (by decide)

end BufferHistory

end Tntpp
