import Tntpp.Base.Block

/-!
# Shared buffers

`SharedBuffer` is one allocation with a read and a write pointer into it.  The
source keeps the two pointers in order by assertions after every move; here the
order is part of the type, and an operation whose assertion would fail, or which
would write outside the allocation, returns `none`.  A theorem that an operation
returns `some` is therefore the statement that its assertions hold.

Sizes are natural numbers.  The source computes them in `size_t`, which makes no
difference to a buffer that exists: `make_unique` has allocated that many bytes.  What
it makes of the size that is asked for is in `Detail.ReceiveBuffer`.
-/

namespace Tntpp

open Block

/-- A buffer that can be shared between multiple readers. -/
@[ext]
structure SharedBuffer where
  /-- Where the next received byte goes. -/
  writePointer : Nat
  /-- The first byte not yet consumed. -/
  readPointer : Nat
  /-- The size of the allocation. -/
  size : Nat
  /-- Its contents. -/
  data : List UInt8
  /-- `assert(m_write_pointer >= m_read_pointer)`. -/
  read_le_write : readPointer ≤ writePointer
  /-- `assert(m_write_pointer <= m_size)`. -/
  write_le_size : writePointer ≤ size
  /-- The contents fill the allocation. -/
  length_data : data.length = size

namespace SharedBuffer

/-- A fresh allocation, zeroed by `make_unique`. -/
def new (size : Nat) : SharedBuffer where
  writePointer := 0
  readPointer := 0
  size := size
  data := List.replicate size 0
  read_le_write := le_rfl
  write_le_size := Nat.zero_le size
  length_data := List.length_replicate

/-- The number of free bytes in the buffer. -/
def free (b : SharedBuffer) : Nat := b.size - b.writePointer

/-- The number of bytes that can be processed by the consumer. -/
def ready (b : SharedBuffer) : Nat := b.writePointer - b.readPointer

/-- Whether nothing was ever written to the buffer. -/
def isEmpty (b : SharedBuffer) : Bool := b.writePointer == 0

/-- The bytes the consumer has not processed: `get_ready_buffer`. -/
def unread (b : SharedBuffer) : List UInt8 := slice b.data b.readPointer b.ready

/-- `advance_reader`. -/
def advanceReader (b : SharedBuffer) (bytes : Nat) : Option SharedBuffer :=
  if h : b.readPointer + bytes ≤ b.writePointer then
    some { b with readPointer := b.readPointer + bytes, read_le_write := h }
  else none

/-- `advance_writer`. -/
def advanceWriter (b : SharedBuffer) (bytes : Nat) : Option SharedBuffer :=
  if h : b.writePointer + bytes ≤ b.size then
    some { b with
      writePointer := b.writePointer + bytes
      read_le_write := Nat.le_add_right_of_le b.read_le_write
      write_le_size := h }
  else none

/-- Store `bs` in the allocation at position `i`. -/
def store (b : SharedBuffer) (i : Nat) (bs : List UInt8) : Option SharedBuffer :=
  if h : i + bs.length ≤ b.size then
    some { b with
      data := overwrite b.data i bs
      length_data := by rw [length_overwrite (b.length_data ▸ h), b.length_data] }
  else none

/-- `copy_rest_from`: move the unread bytes of `other` to the front of this buffer.
Both buffers change, and both are returned. -/
def copyRestFrom (b other : SharedBuffer) : Option (SharedBuffer × SharedBuffer) :=
  if other.ready < b.size then do
    let b ← b.store 0 other.unread
    let b ← b.advanceWriter other.ready
    let other ← other.advanceReader other.ready
    return (b, other)
  else none

/-! ## What the operations do -/

@[simp] theorem free_new (size : Nat) : (new size).free = size := rfl

@[simp] theorem unread_new (size : Nat) : (new size).unread = [] := rfl

@[simp] theorem length_unread (b : SharedBuffer) : b.unread.length = b.ready := by
  have h₁ := b.read_le_write
  have h₂ := b.write_le_size
  have h₃ := b.length_data
  apply length_slice
  unfold ready
  omega

/-- `b'` continues `b`: the part of `b` that was consumed is consumed in `b'` and
holds the same bytes there. -/
structure Continues (b b' : SharedBuffer) : Prop where
  /-- The read pointer never goes back. -/
  read_le : b.readPointer ≤ b'.readPointer
  /-- Consumed bytes are never written again. -/
  take_eq : b'.data.take b.readPointer = b.data.take b.readPointer

namespace Continues

theorem refl (b : SharedBuffer) : Continues b b := ⟨le_rfl, rfl⟩

theorem trans {b b' b'' : SharedBuffer} (h : Continues b b') (h' : Continues b' b'') :
    Continues b b'' where
  read_le := Nat.le_trans h.read_le h'.read_le
  take_eq := by
    have := congrArg (List.take b.readPointer) h'.take_eq
    rw [List.take_take, List.take_take, min_eq_left h.read_le] at this
    rw [this, h.take_eq]

end Continues

theorem advanceReader_spec {b : SharedBuffer} {n : Nat} (h : n ≤ b.ready) :
    ∃ b', b.advanceReader n = some b' ∧ b'.unread = b.unread.drop n ∧
      b'.writePointer = b.writePointer ∧ b'.size = b.size ∧ b'.data = b.data ∧
      b'.readPointer = b.readPointer + n ∧ Continues b b' := by
  have hrw := b.read_le_write
  have hn : b.readPointer + n ≤ b.writePointer := by
    unfold ready at h
    omega
  refine ⟨_, dif_pos hn, ?_, rfl, rfl, rfl, rfl, ⟨Nat.le_add_right _ _, rfl⟩⟩
  simp only [unread, slice, ready, List.drop_take, List.drop_drop]
  congr 1
  omega

theorem store_spec {b : SharedBuffer} {bs : List UInt8} (h : bs.length ≤ b.free) :
    ∃ b', b.store b.writePointer bs = some b' ∧ b'.writePointer = b.writePointer ∧
      b'.readPointer = b.readPointer ∧ b'.size = b.size ∧ b'.unread = b.unread ∧
      slice b'.data b'.writePointer bs.length = bs ∧ Continues b b' := by
  have hws := b.write_le_size
  have hrw := b.read_le_write
  have hlen := b.length_data
  have hn : b.writePointer + bs.length ≤ b.size := by
    unfold free at h
    omega
  have htake : (overwrite b.data b.writePointer bs).take b.writePointer =
      b.data.take b.writePointer := take_overwrite le_rfl (by omega)
  refine ⟨_, dif_pos hn, rfl, rfl, rfl, ?_, slice_overwrite_self (by omega), ⟨le_rfl, ?_⟩⟩
  · have hend : b.readPointer + (b.writePointer - b.readPointer) ≤ b.writePointer := by omega
    exact slice_eq_of_take_eq htake hend
  · exact take_overwrite hrw (by omega)

theorem advanceWriter_spec {b : SharedBuffer} {n : Nat} (h : n ≤ b.free) :
    ∃ b', b.advanceWriter n = some b' ∧
      b'.unread = b.unread ++ slice b.data b.writePointer n ∧
      b'.readPointer = b.readPointer ∧ b'.size = b.size ∧ b'.data = b.data ∧
      b'.writePointer = b.writePointer + n ∧ Continues b b' := by
  have hws := b.write_le_size
  have hrw := b.read_le_write
  have hn : b.writePointer + n ≤ b.size := by
    unfold free at h
    omega
  refine ⟨_, dif_pos hn, ?_, rfl, rfl, rfl, rfl, ⟨le_rfl, rfl⟩⟩
  have hend : b.readPointer + (b.writePointer - b.readPointer) = b.writePointer := by omega
  have hsum : b.writePointer + n - b.readPointer = b.writePointer - b.readPointer + n := by omega
  have happ := slice_append (l := b.data) (i := b.readPointer)
    (m := b.writePointer - b.readPointer) (n := n)
  rw [hend] at happ
  simp only [unread, ready, hsum]
  exact happ.symm

/-- Moving the unread bytes to a fresh, larger buffer loses none of them. -/
theorem copyRestFrom_spec {other : SharedBuffer} {size : Nat} (h : other.ready < size) :
    ∃ b other', (new size).copyRestFrom other = some (b, other') ∧ b.unread = other.unread ∧
      b.size = size ∧ b.writePointer = other.ready ∧ b.readPointer = 0 ∧
      Continues other other' := by
  have hfree : other.unread.length ≤ (new size).free := by
    rw [length_unread, free_new]
    omega
  obtain ⟨b₁, h₁, hw₁, hr₁, hs₁, hu₁, hd₁, -⟩ := store_spec hfree
  have hfree₁ : other.ready ≤ b₁.free := by
    rw [free, hw₁, hs₁]
    exact Nat.le_of_lt h
  obtain ⟨b₂, h₂, hu₂, hr₂, hs₂, hd₂, hw₂, -⟩ := advanceWriter_spec hfree₁
  obtain ⟨other', h₃, -, -, -, -, -, hc⟩ := advanceReader_spec (b := other) le_rfl
  have hw : (new size).writePointer = 0 := rfl
  rw [length_unread] at hd₁
  refine ⟨b₂, other', ?_, ?_, ?_, ?_, ?_, hc⟩
  · simp only [copyRestFrom]
    rw [if_pos (show other.ready < (new size).size from h), ← hw, h₁]
    simp [h₂, h₃]
  · rw [hu₂, hu₁, hd₁, unread_new, List.nil_append]
  · rw [hs₂, hs₁]
    rfl
  · rw [hw₂, hw₁, hw, Nat.zero_add]
  · rw [hr₂, hr₁]
    rfl

end SharedBuffer

end Tntpp
