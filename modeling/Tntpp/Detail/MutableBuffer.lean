import Tntpp.Detail.SharedBuffer

/-!
# Mutable and frozen buffers

`MutableBuffer` receives bytes into a shared buffer and hands out `FrozenBuffer`s,
references to regions of it.  Reallocation replaces the shared buffer, but the old
one lives on as long as a frozen buffer refers to it.  The model keeps every
allocation: `retired` holds those the buffer has moved on from, oldest first, and
a frozen buffer names its allocation by position, so that reading through an old
reference is reading memory as it is *now*.

What the operations mean is stated in two terms.  `unread` is the byte queue the
buffer implements: `prepare`, `receive` followed by `advanceWriter`, and
`advanceReader` are enlarge, append and remove-from-the-front on it.  `Keeps` is
what holders of frozen buffers rely on: every region handed out still reads the
same bytes.
-/

namespace Tntpp

open Block

/-- An immutable reference to a region of a shared buffer. -/
structure FrozenBuffer where
  /-- The position of the first byte in the allocation. -/
  data : Nat := 0
  /-- The number of bytes. -/
  size : Nat := 0
  /-- The allocation, if there is one. -/
  buf : Option Nat := none
deriving DecidableEq, Repr

/-- `FrozenBuffer::slice` with the default length: everything from `start` on. -/
def FrozenBuffer.slice (f : FrozenBuffer) (start : Nat) : Option FrozenBuffer :=
  if start < f.size then some { f with data := f.data + start, size := f.size - start } else none

/-- A receive buffer that reallocates when it is full. -/
structure MutableBuffer where
  /-- The size of a fresh allocation. -/
  defaultLength : Nat
  /-- The allocations of the past. -/
  retired : List SharedBuffer
  /-- The current allocation. -/
  buffer : SharedBuffer

namespace MutableBuffer

/-- The constructor. -/
def new (defaultLength : Nat) : MutableBuffer := ⟨defaultLength, [], SharedBuffer.new defaultLength⟩

/-- Every allocation, the current one last. -/
def blocks (m : MutableBuffer) : List SharedBuffer := m.retired ++ [m.buffer]

/-- The bytes a frozen buffer refers to. -/
def view (m : MutableBuffer) (f : FrozenBuffer) : List UInt8 :=
  match f.buf.bind fun i ↦ m.blocks[i]? with
  | some b => Block.slice b.data f.data f.size
  | none => []

/-- The bytes received and not yet consumed. -/
def unread (m : MutableBuffer) : List UInt8 := m.buffer.unread

/-- The number of those bytes. -/
def ready (m : MutableBuffer) : Nat := m.buffer.ready

/-- Prepare at least `bytes` bytes in the receive buffer. -/
def prepare (m : MutableBuffer) (bytes : Nat) : Option MutableBuffer :=
  if m.buffer.free ≥ bytes then some m
  else do
    let (new, old) ←
      (SharedBuffer.new (m.buffer.ready + bytes + m.defaultLength)).copyRestFrom m.buffer
    return { m with retired := m.retired ++ [old], buffer := new }

/-- The size of the remaining part of the buffer, which is reallocated first if it
is full. -/
def getReceiveBuffer (m : MutableBuffer) : Option (Nat × MutableBuffer) := do
  let m ← if m.buffer.free = 0 then m.prepare m.defaultLength else some m
  return (m.buffer.free, m)

/-- Write bytes at the start of the receive buffer without marking them as
written. -/
def receive (m : MutableBuffer) (bs : List UInt8) : Option MutableBuffer := do
  let b ← m.buffer.store m.buffer.writePointer bs
  return { m with buffer := b }

/-- Mark bytes as written. -/
def advanceWriter (m : MutableBuffer) (bytes : Nat) : Option MutableBuffer := do
  let b ← m.buffer.advanceWriter bytes
  return { m with buffer := b }

/-- Mark bytes as consumed, and freeze them. -/
def advanceReader (m : MutableBuffer) (bytes : Nat) : Option (FrozenBuffer × MutableBuffer) :=
  if m.buffer.ready ≥ bytes then do
    let frozen := ⟨m.buffer.readPointer, bytes, some m.retired.length⟩
    let b ← m.buffer.advanceReader bytes
    return (frozen, { m with buffer := b })
  else none

/-- Start over with an empty buffer, unless nothing was written to this one. -/
def clear (m : MutableBuffer) : MutableBuffer :=
  if m.buffer.isEmpty then m
  else { m with retired := m.retired ++ [m.buffer], buffer := SharedBuffer.new m.defaultLength }

/-! ## Frozen regions stay frozen -/

@[simp] theorem length_unread (m : MutableBuffer) : m.unread.length = m.ready :=
  m.buffer.length_unread

/-- A frozen buffer refers to consumed bytes of an allocation. -/
def Frozen (m : MutableBuffer) (f : FrozenBuffer) : Prop :=
  ∀ i, f.buf = some i → ∃ b, m.blocks[i]? = some b ∧ f.data + f.size ≤ b.readPointer

/-- Every allocation of `m` is continued in `m'`, under the same name. -/
def Keeps (m m' : MutableBuffer) : Prop :=
  ∀ (i : Nat) (b : SharedBuffer), m.blocks[i]? = some b → ∃ b', m'.blocks[i]? = some b' ∧ SharedBuffer.Continues b b'

namespace Keeps

variable {m m' m'' : MutableBuffer}

theorem refl (m : MutableBuffer) : Keeps m m := fun _ b hb ↦ ⟨b, hb, .refl b⟩

theorem trans (h : Keeps m m') (h' : Keeps m' m'') : Keeps m m'' := by
  intro i b hb
  obtain ⟨b', hb', hc⟩ := h i b hb
  obtain ⟨b'', hb'', hc'⟩ := h' i b' hb'
  exact ⟨b'', hb'', hc.trans hc'⟩

/-- Continuing the current allocation in place keeps all of them. -/
theorem of_buffer {b : SharedBuffer} (h : SharedBuffer.Continues m.buffer b) :
    Keeps m { m with buffer := b } := by
  intro i c hc
  rcases Nat.lt_or_ge i m.retired.length with hi | hi
  · rw [blocks, List.getElem?_append_left hi] at hc
    exact ⟨c, by rw [blocks, List.getElem?_append_left hi, hc], .refl c⟩
  · have hlt := (List.getElem?_eq_some_iff.mp hc).1
    have hz : i = m.retired.length := by
      simp only [blocks, List.length_append, List.length_singleton] at hlt
      omega
    subst hz
    obtain rfl : m.buffer = c := by simpa [blocks] using hc
    exact ⟨b, by simp [blocks], h⟩

/-- Retiring a continuation of the current allocation keeps all of them. -/
theorem of_retired {b new : SharedBuffer} (h : SharedBuffer.Continues m.buffer b) :
    Keeps m { m with retired := m.retired ++ [b], buffer := new } := by
  intro i c hc
  obtain ⟨c', hc', hcont⟩ := of_buffer h i c hc
  have hi : i < (m.retired ++ [b]).length := (List.getElem?_eq_some_iff.mp hc').1
  refine ⟨c', ?_, hcont⟩
  rw [blocks, List.getElem?_append_left hi]
  exact hc'

/-- What was frozen stays frozen. -/
theorem frozen (h : Keeps m m') {f : FrozenBuffer} (hf : m.Frozen f) : m'.Frozen f := by
  intro i hi
  obtain ⟨b, hb, hle⟩ := hf i hi
  obtain ⟨b', hb', hc⟩ := h i b hb
  exact ⟨b', hb', Nat.le_trans hle hc.read_le⟩

/-- What was frozen reads the same. -/
theorem view_eq (h : Keeps m m') {f : FrozenBuffer} (hf : m.Frozen f) : m'.view f = m.view f := by
  cases hbuf : f.buf with
  | none => simp [view, hbuf]
  | some i =>
      obtain ⟨b, hb, hle⟩ := hf i hbuf
      obtain ⟨b', hb', hc⟩ := h i b hb
      simp only [view, hbuf, Option.bind_some, hb, hb']
      exact slice_eq_of_take_eq hc.take_eq hle

end Keeps

/-! ## What the operations do -/

theorem view_def {m : MutableBuffer} {f : FrozenBuffer} {b : SharedBuffer} {i : Nat}
    (hi : f.buf = some i) (hb : m.blocks[i]? = some b) :
    m.view f = Block.slice b.data f.data f.size := by
  simp [view, hi, hb]

/-- The current allocation is named by the number of the past ones. -/
theorem blocks_getElem?_retired (m : MutableBuffer) :
    m.blocks[m.retired.length]? = some m.buffer := by
  simp [blocks]

/-- Preparing never fails, leaves the unread bytes alone and makes room. -/
theorem prepare_spec (m : MutableBuffer) (n : Nat) :
    ∃ m', m.prepare n = some m' ∧ m'.unread = m.unread ∧ n ≤ m'.buffer.free ∧
      m'.defaultLength = m.defaultLength ∧ Keeps m m' := by
  rcases Nat.lt_or_ge m.buffer.free n with hn | hn
  · have hlt : m.buffer.ready < m.buffer.ready + n + m.defaultLength := by omega
    obtain ⟨new, old, h, hu, hs, hw, -, hc⟩ := SharedBuffer.copyRestFrom_spec hlt
    refine ⟨{ m with retired := m.retired ++ [old], buffer := new }, ?_, hu, ?_, rfl,
      .of_retired hc⟩
    · rw [prepare, if_neg (by omega), h]
      rfl
    · rw [SharedBuffer.free, hs, hw]
      omega
  · exact ⟨m, if_pos hn, rfl, hn, rfl, .refl m⟩

/-- The receive buffer is as large as the free part of the allocation, which is
not empty unless the default length is zero. -/
theorem getReceiveBuffer_spec (m : MutableBuffer) :
    ∃ m', m.getReceiveBuffer = some (m'.buffer.free, m') ∧ m'.unread = m.unread ∧
      m.buffer.free ≤ m'.buffer.free ∧ (0 < m.defaultLength → 0 < m'.buffer.free) ∧
      m'.defaultLength = m.defaultLength ∧ Keeps m m' := by
  by_cases hfree : m.buffer.free = 0
  · obtain ⟨m', h, hu, hle, hd, hk⟩ := m.prepare_spec m.defaultLength
    refine ⟨m', ?_, hu, ?_, ?_, hd, hk⟩
    · simp [getReceiveBuffer, hfree, h]
    · omega
    · omega
  · refine ⟨m, ?_, rfl, Nat.le_refl _, fun _ ↦ Nat.pos_of_ne_zero hfree, rfl, .refl m⟩
    simp [getReceiveBuffer, hfree]

/-- Received bytes lie behind the unread ones until they are marked as written. -/
theorem receive_spec {m : MutableBuffer} {bs : List UInt8} (h : bs.length ≤ m.buffer.free) :
    ∃ m', m.receive bs = some m' ∧ m'.unread = m.unread ∧
      m'.buffer.free = m.buffer.free ∧ m'.defaultLength = m.defaultLength ∧
      Block.slice m'.buffer.data m'.buffer.writePointer bs.length = bs ∧ Keeps m m' := by
  obtain ⟨b, hb, hw, -, hs, hu, hd, hc⟩ := SharedBuffer.store_spec h
  refine ⟨{ m with buffer := b }, ?_, hu, ?_, rfl, hd, .of_buffer hc⟩
  · simp [receive, hb]
  · simp only [SharedBuffer.free, hs, hw]

theorem advanceWriter_spec {m : MutableBuffer} {n : Nat} (h : n ≤ m.buffer.free) :
    ∃ m', m.advanceWriter n = some m' ∧
      m'.unread = m.unread ++ Block.slice m.buffer.data m.buffer.writePointer n ∧
      m'.defaultLength = m.defaultLength ∧ Keeps m m' := by
  obtain ⟨b, hb, hu, -, -, -, -, hc⟩ := SharedBuffer.advanceWriter_spec h
  refine ⟨{ m with buffer := b }, ?_, hu, rfl, .of_buffer hc⟩
  simp [advanceWriter, hb]

/-- Received bytes that are marked as written become unread. -/
theorem receive_advanceWriter_spec {m : MutableBuffer} {bs : List UInt8}
    (h : bs.length ≤ m.buffer.free) :
    ∃ m₁ m₂, m.receive bs = some m₁ ∧ m₁.advanceWriter bs.length = some m₂ ∧
      m₂.unread = m.unread ++ bs ∧ m₂.defaultLength = m.defaultLength ∧ Keeps m m₂ := by
  obtain ⟨m₁, h₁, hu₁, hf₁, hd₁, hs₁, hk₁⟩ := receive_spec h
  obtain ⟨m₂, h₂, hu₂, hd₂, hk₂⟩ := advanceWriter_spec (hf₁ ▸ h)
  exact ⟨m₁, m₂, h₁, h₂, by rw [hu₂, hu₁, hs₁], hd₂.trans hd₁, hk₁.trans hk₂⟩

/-- Consuming freezes the first unread bytes and removes them. -/
theorem advanceReader_spec {m : MutableBuffer} {n : Nat} (h : n ≤ m.ready) :
    ∃ f m', m.advanceReader n = some (f, m') ∧ f.size = n ∧ m'.Frozen f ∧
      m'.view f = m.unread.take n ∧ m'.unread = m.unread.drop n ∧
      m'.defaultLength = m.defaultLength ∧ Keeps m m' := by
  obtain ⟨b, hb, hu, -, -, hd, hr, hc⟩ := SharedBuffer.advanceReader_spec h
  have hblock := blocks_getElem?_retired { m with buffer := b }
  refine ⟨⟨m.buffer.readPointer, n, some m.retired.length⟩, { m with buffer := b }, ?_, rfl, ?_,
    ?_, hu, rfl, .of_buffer hc⟩
  · rw [advanceReader, if_pos (show m.buffer.ready ≥ n from h), hb]
    rfl
  · intro i hi
    obtain rfl : m.retired.length = i := Option.some.inj hi
    exact ⟨b, hblock, Nat.le_of_eq hr.symm⟩
  · rw [view_def rfl hblock, hd, unread, SharedBuffer.unread, Block.slice, Block.slice,
      List.take_take]
    congr 1
    exact (Nat.min_eq_left h).symm

/-- Clearing leaves nothing unread. -/
theorem clear_spec (m : MutableBuffer) :
    m.clear.unread = [] ∧ m.clear.defaultLength = m.defaultLength ∧ Keeps m m.clear := by
  unfold clear
  split_ifs with h
  · have hw : m.buffer.writePointer = 0 := by simpa [SharedBuffer.isEmpty] using h
    refine ⟨?_, rfl, .refl m⟩
    rw [← List.length_eq_zero_iff, length_unread, ready, SharedBuffer.ready, hw, Nat.zero_sub]
  · exact ⟨rfl, rfl, .of_retired (.refl _)⟩

end MutableBuffer

/-- A slice of a frozen buffer is the rest of its bytes, and frozen like it. -/
theorem FrozenBuffer.slice_spec {f : FrozenBuffer} {start : Nat} (h : start < f.size)
    (m : MutableBuffer) :
    ∃ g, f.slice start = some g ∧ g.size = f.size - start ∧ m.view g = (m.view f).drop start ∧
      (m.Frozen f → m.Frozen g) := by
  refine ⟨{ f with data := f.data + start, size := f.size - start }, if_pos h, rfl, ?_, ?_⟩
  · simp only [MutableBuffer.view]
    cases f.buf.bind fun i ↦ m.blocks[i]? with
    | none => simp
    | some b => simp only [Block.slice, List.drop_take, List.drop_drop]
  · intro hf i hi
    obtain ⟨b, hb, hle⟩ := hf i hi
    exact ⟨b, hb, by simp only; omega⟩

end Tntpp
