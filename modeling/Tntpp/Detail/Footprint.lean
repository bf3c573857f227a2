import Mathlib.Algebra.GroupWithZero.Nat
import Tntpp.Detail.Segmentation

/-!
# What a connection makes the receiver allocate

A message that does not fit into the free part of the receive buffer gets a new allocation,
with room for the length it *announces*, before any of its payload has arrived.  What was
allocated is not reused.  Two bounds hold nevertheless, over any number of connections and
whatever they deliver.  No allocation is much larger than the longest message announced, and
all of them together are linear in the number of bytes that were really sent, apart from one
announcement for each connection, the one it breaks.

The second bound is amortized.  A new allocation is made only when less of the last one is
free than the message needs, so the default length it had to spare is paid for by the bytes
that used it up and by the announcement.  `potential` is what was paid in advance.
-/

namespace Tntpp

open MsgPack (Codec)

/-! ## What the operations of a buffer allocate -/

/-- Moving the unread bytes out of an allocation does not change its size. -/
theorem SharedBuffer.copyRestFrom_size {b other b' other' : SharedBuffer}
    (h : b.copyRestFrom other = some (b', other')) : other'.size = other.size := by
  rw [copyRestFrom] at h
  split_ifs at h
  obtain ⟨b₁, -, h⟩ := Option.bind_eq_some_iff.mp h
  obtain ⟨b₂, -, h⟩ := Option.bind_eq_some_iff.mp h
  obtain ⟨other₁, hadvance, h⟩ := Option.bind_eq_some_iff.mp h
  cases h
  rw [advanceReader] at hadvance
  split_ifs at hadvance
  cases hadvance
  rfl

namespace MutableBuffer

/-- The sizes of all allocations, oldest first. -/
def sizes (m : MutableBuffer) : List Nat := m.blocks.map SharedBuffer.size

/-- How much of the default length is used up. -/
def used (m : MutableBuffer) : Nat := m.defaultLength - m.buffer.free

variable {m m' : MutableBuffer} {n : Nat}

/-- Retiring an allocation for another one adds the size of that. -/
theorem sizes_retire {old new : SharedBuffer} (h : old.size = m.buffer.size) :
    ({ m with retired := m.retired ++ [old], buffer := new } : MutableBuffer).sizes =
      m.sizes ++ [new.size] := by
  simp only [sizes, blocks, List.map_append, List.map_singleton, h]

/-- Nothing is allocated if the current allocation keeps its size. -/
theorem sizes_buffer {b : SharedBuffer} (h : b.size = m.buffer.size) :
    ({ m with buffer := b } : MutableBuffer).sizes = m.sizes := by
  simp only [sizes, blocks, List.map_append, List.map_singleton, h]

/-- Preparing allocates if too little is free. -/
theorem prepare_sizes (h : m.prepare n = some m') :
    m'.defaultLength = m.defaultLength ∧ m'.ready = m.ready ∧
      ((n ≤ m.buffer.free ∧ m'.sizes = m.sizes ∧ m'.buffer.free = m.buffer.free) ∨
        (m.buffer.free < n ∧ m'.sizes = m.sizes ++ [m.ready + n + m.defaultLength] ∧
          m'.buffer.free = n + m.defaultLength)) := by
  rcases Nat.lt_or_ge m.buffer.free n with hn | hn
  · have hlt : m.buffer.ready < m.buffer.ready + n + m.defaultLength := by omega
    obtain ⟨new, old, hcopy, -, hsize, hwrite, hread, -⟩ := SharedBuffer.copyRestFrom_spec hlt
    rw [prepare, if_neg (Nat.not_le.mpr hn), hcopy] at h
    cases h
    refine ⟨rfl, ?_, Or.inr ⟨hn, ?_, ?_⟩⟩
    · rw [ready, ready, SharedBuffer.ready, hwrite, hread, Nat.sub_zero]
    · rw [sizes_retire (SharedBuffer.copyRestFrom_size hcopy), hsize, ready]
    · rw [SharedBuffer.free, hsize, hwrite]
      omega
  · rw [prepare, if_pos hn] at h
    cases h
    exact ⟨rfl, rfl, Or.inl ⟨hn, rfl, rfl⟩⟩

theorem prepare_free (h : m.prepare n = some m') : n ≤ m'.buffer.free := by
  obtain ⟨-, -, ⟨hle, -, hfree⟩ | ⟨-, -, hfree⟩⟩ := prepare_sizes h
  · rw [hfree]
    exact hle
  · rw [hfree]
    exact Nat.le_add_right _ _

/-- The receive buffer is the free part, if there is one. -/
theorem getReceiveBuffer_sizes {cap : Nat} (h : m.getReceiveBuffer = some (cap, m'))
    (hfree : 0 < m.buffer.free) : cap = m.buffer.free ∧ m' = m := by
  rw [getReceiveBuffer, if_neg (Nat.ne_of_gt hfree)] at h
  cases h
  exact ⟨rfl, rfl⟩

/-- Storing what was received changes no number. -/
theorem receive_sizes {bs : List UInt8} (h : m.receive bs = some m') :
    m'.defaultLength = m.defaultLength ∧ m'.sizes = m.sizes ∧ m'.ready = m.ready ∧
      m'.buffer.free = m.buffer.free := by
  obtain ⟨b, hb, h⟩ := Option.bind_eq_some_iff.mp h
  cases h
  rw [SharedBuffer.store] at hb
  split_ifs at hb
  cases hb
  exact ⟨rfl, sizes_buffer rfl, rfl, rfl⟩

/-- Marking bytes as written makes free ones ready. -/
theorem advanceWriter_sizes (h : m.advanceWriter n = some m') :
    m'.defaultLength = m.defaultLength ∧ m'.sizes = m.sizes ∧ m'.ready = m.ready + n ∧
      m'.buffer.free + n = m.buffer.free := by
  obtain ⟨b, hb, h⟩ := Option.bind_eq_some_iff.mp h
  cases h
  rw [SharedBuffer.advanceWriter] at hb
  split_ifs at hb with hn
  cases hb
  have hread := m.buffer.read_le_write
  refine ⟨rfl, sizes_buffer rfl, ?_, ?_⟩
  · show m.buffer.writePointer + n - m.buffer.readPointer = _ + n
    exact Nat.sub_add_comm hread
  · show m.buffer.size - (m.buffer.writePointer + n) + n = m.buffer.size - m.buffer.writePointer
    omega

/-- Consuming bytes makes fewer of them ready. -/
theorem advanceReader_sizes {f : FrozenBuffer} (h : m.advanceReader n = some (f, m')) :
    m'.defaultLength = m.defaultLength ∧ m'.sizes = m.sizes ∧ m'.ready + n = m.ready ∧
      m'.buffer.free = m.buffer.free := by
  rw [advanceReader] at h
  split_ifs at h with hn
  obtain ⟨b, hb, h⟩ := Option.bind_eq_some_iff.mp h
  cases h
  rw [SharedBuffer.advanceReader] at hb
  split_ifs at hb
  cases hb
  refine ⟨rfl, sizes_buffer rfl, ?_, rfl⟩
  show m.buffer.writePointer - (m.buffer.readPointer + n) + n = _
  rw [← Nat.sub_sub]
  exact Nat.sub_add_cancel hn

/-- Clearing allocates the default length, if anything. -/
theorem clear_sizes (m : MutableBuffer) :
    m.clear.defaultLength = m.defaultLength ∧ m.clear.ready = 0 ∧ m.clear.used ≤ m.used ∧
      (m.clear.sizes = m.sizes ∨ m.clear.sizes = m.sizes ++ [m.defaultLength]) := by
  rw [clear]
  split_ifs with h
  · have hwrite : m.buffer.writePointer = 0 := by simpa [SharedBuffer.isEmpty] using h
    refine ⟨rfl, ?_, Nat.le_refl _, Or.inl rfl⟩
    rw [ready, SharedBuffer.ready, hwrite, Nat.zero_sub]
  · refine ⟨rfl, rfl, ?_, Or.inr (sizes_retire rfl)⟩
    have hused : m.defaultLength - (SharedBuffer.new m.defaultLength).free = 0 :=
      Nat.sub_self m.defaultLength
    rw [used, hused]
    exact Nat.zero_le _

/-- What was allocated stays, and what is new has room for two messages of length `L` and the
default length. -/
structure Grows (L : Nat) (m m' : MutableBuffer) : Prop where
  /-- The default length stays. -/
  defaultLength_eq : m'.defaultLength = m.defaultLength
  /-- What was allocated stays. -/
  sizes_subset : m.sizes ⊆ m'.sizes
  /-- What is new is small. -/
  size_le : ∀ x ∈ m'.sizes, x ∈ m.sizes ∨ x ≤ m.defaultLength + 2 * L

variable {m'' : MutableBuffer} {L : Nat}

theorem Grows.trans (h : Grows L m m') (h' : Grows L m' m'') : Grows L m m'' := by
  refine ⟨h'.defaultLength_eq.trans h.defaultLength_eq,
    List.Subset.trans h.sizes_subset h'.sizes_subset, fun x hx ↦ ?_⟩
  rcases h'.size_le x hx with hx | hx
  · exact h.size_le x hx
  · exact Or.inr (h.defaultLength_eq ▸ hx)

/-- Nothing is allocated. -/
theorem Grows.of_eq (hd : m'.defaultLength = m.defaultLength) (h : m'.sizes = m.sizes) :
    Grows L m m' :=
  ⟨hd, h ▸ List.Subset.refl _, fun _ hx ↦ Or.inl (h ▸ hx)⟩

/-- One allocation is made. -/
theorem Grows.of_append (hd : m'.defaultLength = m.defaultLength) (h : m'.sizes = m.sizes ++ [n])
    (hn : n ≤ m.defaultLength + 2 * L) : Grows L m m' := by
  refine ⟨hd, h ▸ List.subset_append_left _ _, fun x hx ↦ ?_⟩
  rw [h] at hx
  rcases List.mem_append.mp hx with hx | hx
  · exact Or.inl hx
  · exact Or.inr (List.mem_singleton.mp hx ▸ hn)

theorem clear_grows (m : MutableBuffer) : Grows L m m.clear := by
  obtain ⟨hd, -, -, hsizes | hsizes⟩ := m.clear_sizes
  · exact .of_eq hd hsizes
  · exact .of_append hd hsizes (Nat.le_add_right _ _)

theorem prepare_grows (h : m.prepare n = some m') (hready : m.ready < n) (hn : n ≤ L) :
    Grows L m m' := by
  obtain ⟨hd, -, ⟨-, hsizes, -⟩ | ⟨-, hsizes, -⟩⟩ := prepare_sizes h
  · exact .of_eq hd hsizes
  · exact .of_append hd hsizes (by omega)

/-- What is allocated is paid for by what is used up of the default length, and by three
times what is read. -/
theorem prepare_sum_le (h : m.prepare n = some m') (hready : m.ready < n) :
    m'.sizes.sum + m'.used ≤ m.sizes.sum + m.used + 3 * n := by
  obtain ⟨hd, -, ⟨-, hsizes, hfree⟩ | ⟨hfull, hsizes, hfree⟩⟩ := prepare_sizes h
  · rw [used, used, hsizes, hd, hfree]
    exact Nat.le_add_right _ _
  · rw [used, used, hsizes, hd, hfree, List.sum_append, List.sum_singleton]
    omega

end MutableBuffer

/-- The number of bytes a connection delivers. -/
def AsyncReadStream.received (stream : AsyncReadStream) : Nat := stream.segments.flatten.length

namespace IprotoFraming

variable {s s' : IprotoFraming} {L : Nat}

/-! ## What a call allocates -/

/-- What was paid in advance: the part of the default length that is used up, and the bytes
that are still to be consumed. -/
def potential (s : IprotoFraming) : Nat :=
  s.buffer.used + 3 * s.buffer.ready + 4 * s.nextLayer.segments.flatten.length

/-- A call allocates little, if the lengths it reads are at most `L`. -/
structure Frugal (L : Nat) (s s' : IprotoFraming) (ec : ErrorCode) : Prop where
  /-- No allocation is large. -/
  grows : s.buffer.Grows L s'.buffer
  /-- All of them are paid for in advance, unless the call fails. -/
  sum_le : s'.buffer.sizes.sum + s'.potential ≤
    s.buffer.sizes.sum + s.potential + if ec.failed then 3 * L else 0

/-- What `transfer_exactly` does to the numbers. -/
inductive Transfers (n : Nat) (s s' : IprotoFraming) (ec : ErrorCode) : Prop where
  /-- The bytes are there. -/
  | ready (hec : ec.failed = false) (hlayer : s'.nextLayer = s.nextLayer)
    (hd : s'.buffer.defaultLength = s.buffer.defaultLength)
    (hsizes : s'.buffer.sizes = s.buffer.sizes) (hready : s'.buffer.ready + n = s.buffer.ready)
    (hfree : s'.buffer.buffer.free = s.buffer.buffer.free)
  /-- Room is made for them, `b` bytes arrive, and the connection ends. -/
  | failed {m : MutableBuffer} {b : Nat} (hn : s.buffer.ready < n)
    (hprepare : s.buffer.prepare n = some m) (hec : ec.failed = true)
    (hlength : b + s'.nextLayer.segments.flatten.length = s.nextLayer.segments.flatten.length)
    (hd : s'.buffer.defaultLength = m.defaultLength) (hsizes : s'.buffer.sizes = m.sizes)
    (hready : s'.buffer.ready = m.ready) (hfree : s'.buffer.buffer.free = m.buffer.free)
  /-- Room is made for them, and `b` bytes arrive, which are enough. -/
  | read {m : MutableBuffer} {b : Nat} (hn : s.buffer.ready < n)
    (hprepare : s.buffer.prepare n = some m) (hec : ec.failed = false)
    (hlength : b + s'.nextLayer.segments.flatten.length = s.nextLayer.segments.flatten.length)
    (hd : s'.buffer.defaultLength = m.defaultLength) (hsizes : s'.buffer.sizes = m.sizes)
    (hready : s'.buffer.ready + n = m.ready + b)
    (hfree : s'.buffer.buffer.free + b = m.buffer.free)

theorem transferExactly_transfers {n : Nat} {ec : ErrorCode} {f : FrozenBuffer}
    (h : s.transferExactly n = some ((ec, f), s')) : Transfers n s s' ec := by
  rw [transferExactly] at h
  split_ifs at h with hn
  · obtain ⟨⟨f', m⟩, hread, h⟩ := Option.bind_eq_some_iff.mp h
    cases h
    obtain ⟨hd, hsizes, hready, hfree⟩ := MutableBuffer.advanceReader_sizes hread
    exact .ready rfl rfl hd hsizes hready hfree
  · have hless : s.buffer.ready < n := Nat.lt_of_not_le hn
    obtain ⟨m, hprepare, h⟩ := Option.bind_eq_some_iff.mp h
    obtain ⟨⟨cap, m₁⟩, hcap, h⟩ := Option.bind_eq_some_iff.mp h
    have hfree : n ≤ m.buffer.free := MutableBuffer.prepare_free hprepare
    have hpos : 0 < m.buffer.free := Nat.lt_of_lt_of_le (Nat.zero_lt_of_lt hless) hfree
    obtain ⟨rfl, rfl⟩ := MutableBuffer.getReceiveBuffer_sizes hcap hpos
    have hcap : n - m₁.ready ≤ m₁.buffer.free := Nat.le_trans (Nat.sub_le _ _) hfree
    have happ := ByteStream.readAtLeast_append hcap s.nextLayer.segments
    dsimp only [AsyncReadStream.asyncRead] at h
    generalize ByteStream.readAtLeast (n - m₁.ready) m₁.buffer.free s.nextLayer.segments = r
      at happ h
    have hlength : r.1.length + r.2.flatten.length = s.nextLayer.segments.flatten.length := by
      rw [← List.length_append, happ]
    obtain ⟨m', hreceive, h⟩ := Option.bind_eq_some_iff.mp h
    obtain ⟨hd, hsizes, hready, hfree⟩ := MutableBuffer.receive_sizes hreceive
    split_ifs at h with hshort hec hec
    · cases h
      exact .failed hless hprepare hec hlength hd hsizes hready hfree
    · exact absurd s.nextLayer.failed_error hec
    · cases hec
    · obtain ⟨m'', hwrite, h⟩ := Option.bind_eq_some_iff.mp h
      obtain ⟨⟨f', m₃⟩, hread, h⟩ := Option.bind_eq_some_iff.mp h
      cases h
      obtain ⟨hd', hsizes', hready', hfree'⟩ := MutableBuffer.advanceWriter_sizes hwrite
      obtain ⟨hd'', hsizes'', hready'', hfree''⟩ := MutableBuffer.advanceReader_sizes hread
      refine .read hless hprepare rfl hlength ?_ ?_ ?_ ?_
      · rw [hd'', hd', hd]
      · rw [hsizes'', hsizes', hsizes]
      · rw [hready'', hready', hready]
      · rw [hfree'', hfree', hfree]

theorem transferExactly_frugal {n : Nat} {ec : ErrorCode} {f : FrozenBuffer} (hn : n ≤ L)
    (h : s.transferExactly n = some ((ec, f), s')) : Frugal L s s' ec := by
  cases transferExactly_transfers h with
  | ready hec hlayer hd hsizes hready hfree =>
      refine ⟨.of_eq hd hsizes, ?_⟩
      rw [potential, potential, MutableBuffer.used, MutableBuffer.used, hsizes, hd, hfree, hlayer]
      omega
  | failed hless hprepare hec hlength hd hsizes hready hfree =>
      obtain ⟨-, hready₁, -⟩ := MutableBuffer.prepare_sizes hprepare
      have hsum := MutableBuffer.prepare_sum_le hprepare hless
      refine ⟨(MutableBuffer.prepare_grows hprepare hless hn).trans (.of_eq hd hsizes), ?_⟩
      rw [MutableBuffer.used] at hsum
      rw [potential, potential, MutableBuffer.used, hsizes, hd, hfree, hready, hready₁, if_pos hec]
      omega
  | read hless hprepare hec hlength hd hsizes hready hfree =>
      obtain ⟨-, hready₁, -⟩ := MutableBuffer.prepare_sizes hprepare
      have hsum := MutableBuffer.prepare_sum_le hprepare hless
      refine ⟨(MutableBuffer.prepare_grows hprepare hless hn).trans (.of_eq hd hsizes), ?_⟩
      -- a byte that arrives is lent four times: once it uses up the default length, and three
      -- times it pays for the room it is read into
      rw [MutableBuffer.used] at hsum
      rw [potential, potential, MutableBuffer.used, hsizes, hd]
      omega

/-- Calls in succession allocate little. -/
theorem sequential_frugal (L : Nat) : Sequential (· ≤ L) (Frugal L) where
  done _ _ _ := ⟨.of_eq rfl rfl, Nat.le_add_right _ _⟩
  trans h h' :=
    ⟨h.grows.trans h'.grows, Nat.le_trans h'.sum_le (Nat.add_le_add_right h.sum_le _)⟩
  transfer hw h := transferExactly_frugal hw h

/-! ## What is announced -/

/-- The length the next message announces, if it can be read. -/
def announces (s : IprotoFraming) : List Nat :=
  match s.readMessageLength with
  | some ((ec, length), _) => if ec.failed then [] else [length.toNat]
  | none => []

/-- The lengths announced over a life. -/
def announced (mp : Codec) : Nat → IprotoFraming → List Nat
  | 0, _ => []
  | n + 1, s =>
      s.announces ++
        match s.receiveMessage mp with
        | some ((ec, _), s') => if ec.failed then [] else announced mp n s'
        | none => []

/-- There is an allocation for everything announced. -/
def Fits (s : IprotoFraming) (ls : List Nat) : Prop := ∀ l ∈ ls, ∃ x ∈ s.buffer.sizes, l ≤ x

theorem Fits.nil (s : IprotoFraming) : s.Fits [] := fun _ hl ↦ absurd hl List.not_mem_nil

theorem Fits.mono {ls : List Nat} (h : s.Fits ls) (hsubset : s.buffer.sizes ⊆ s'.buffer.sizes) :
    s'.Fits ls := by
  intro l hl
  obtain ⟨x, hx, hle⟩ := h l hl
  exact ⟨x, hsubset hx, hle⟩

theorem Fits.append {ls ls' : List Nat} (h : s.Fits ls) (h' : s.Fits ls') : s.Fits (ls ++ ls') :=
  fun l hl ↦ (List.mem_append.mp hl).elim (h l) (h' l)

theorem announces_of_ok {n : SizeType} (h : s.readMessageLength = some (({}, n), s')) :
    s.announces = [n.toNat] := by
  rw [announces, h]
  rfl

/-- What is read is read into an allocation that has room for it. -/
theorem transferExactly_fits {n : Nat} {ec : ErrorCode} {f : FrozenBuffer}
    (h : s.transferExactly n = some ((ec, f), s')) : s'.Fits [n] := by
  have hcurrent (m : MutableBuffer) : m.buffer.size ∈ m.sizes :=
    List.mem_map_of_mem (List.mem_append_right _ List.mem_cons_self)
  have hprepared {m : MutableBuffer} (hprepare : s.buffer.prepare n = some m) :
      n ≤ m.buffer.size :=
    Nat.le_trans (MutableBuffer.prepare_free hprepare) (Nat.sub_le _ _)
  rw [Fits, List.forall_mem_singleton]
  cases transferExactly_transfers h with
  | ready _ _ _ hsizes hready =>
      refine ⟨s.buffer.buffer.size, hsizes ▸ hcurrent s.buffer, ?_⟩
      have hn : n ≤ s.buffer.ready := hready ▸ Nat.le_add_left n _
      exact Nat.le_trans hn (Nat.le_trans (Nat.sub_le _ _) s.buffer.buffer.write_le_size)
  | failed _ hprepare _ _ _ hsizes | read _ hprepare _ _ _ hsizes =>
      exact ⟨_, hsizes ▸ hcurrent _, hprepared hprepare⟩

section

variable {mp : Codec}

theorem receiveMessage_frugal {ec : ErrorCode} {frame : IprotoFrame FrozenBuffer} (hL : 8 ≤ L)
    (hannounces : ∀ l ∈ s.announces, l ≤ L)
    (h : s.receiveMessage mp = some ((ec, frame), s')) :
    (ec.failed = true ∨ ec = {}) ∧ Frugal L s s' ec := by
  refine (sequential_frugal L).along_receiveMessage mp (fun w hw ↦ Nat.le_trans hw hL) ?_
    ec frame s' h
  intro n t ht
  refine hannounces n.toNat ?_
  rw [announces_of_ok ht]
  exact List.mem_singleton_self _

theorem receiveMessage_fits {ec : ErrorCode} {frame : IprotoFrame FrozenBuffer}
    (h : s.receiveMessage mp = some ((ec, frame), s')) : s'.Fits s.announces := by
  rw [receiveMessage_andThen] at h
  rcases andThen_cases h with ⟨n, hn, hec, -⟩ | ⟨ec₁, n, t, hn, hec₁, h⟩
  · rw [announces, hn]
    dsimp only
    rw [if_pos hec]
    exact .nil s'
  · rw [announces, hn]
    dsimp only
    rw [if_neg (Bool.eq_false_iff.mp hec₁)]
    rcases andThen_cases h with ⟨f, hf, -, -⟩ | ⟨ec₂, f, u, hf, -, h⟩
    · exact transferExactly_fits hf
    · obtain ⟨rfl, -⟩ := ofPayload_frozen h
      exact transferExactly_fits hf

/-- A life allocates little: a call that fails is the last one. -/
theorem life_frugal (hL : 8 ≤ L) {n : Nat} (hannounced : ∀ l ∈ announced mp n s, l ≤ L)
    (h : (life mp n s).2 = some s') : (∃ ec, Frugal L s s' ec) ∧ s'.Fits (announced mp n s) := by
  induction n generalizing s with
  | zero =>
      cases h
      exact ⟨⟨{}, (sequential_frugal L).done _ {} (Or.inr rfl)⟩, .nil _⟩
  | succ n ih =>
      rcases hs : s.receiveMessage mp with _ | ⟨⟨ec, frame⟩, t⟩
      · rw [life_of_none hs] at h
        cases h
      · rw [announced, hs] at hannounced ⊢
        dsimp only at hannounced ⊢
        obtain ⟨hok, hfrugal⟩ : (ec.failed = true ∨ ec = {}) ∧ Frugal L s t ec :=
          receiveMessage_frugal hL (fun l hl ↦ hannounced l (List.mem_append_left _ hl)) hs
        have hfits : t.Fits s.announces := receiveMessage_fits hs
        cases hec : ec.failed with
        | true =>
            rw [life_of_failed hs hec] at h
            cases h
            exact ⟨⟨ec, hfrugal⟩, hfits.append (.nil _)⟩
        | false =>
            rw [life_of_ok hs hec] at h
            rw [hec] at hannounced
            obtain ⟨⟨ec', hrest⟩, hfits'⟩ :=
              ih (fun l hl ↦ hannounced l (List.mem_append_right _ hl)) h
            refine ⟨⟨ec', ?_⟩, (hfits.mono hrest.grows.sizes_subset).append hfits'⟩
            obtain rfl : ec = {} := hok.resolve_left (Bool.eq_false_iff.mp hec)
            exact (sequential_frugal L).trans hfrugal hrest

end

/-! ## Several connections -/

/-- The receive loop over several connections: each is received from until it ends. -/
def lives (mp : Codec) : List AsyncReadStream → IprotoFraming → Option IprotoFraming
  | [], s => some s
  | stream :: streams, s =>
      (life mp (stream.received + 1) (s.reconnect stream)).2.bind (lives mp streams)

/-- The lengths announced on them. -/
def announcements (mp : Codec) : List AsyncReadStream → IprotoFraming → List Nat
  | [], _ => []
  | stream :: streams, s =>
      announced mp (stream.received + 1) (s.reconnect stream) ++
        match (life mp (stream.received + 1) (s.reconnect stream)).2 with
        | some s' => announcements mp streams s'
        | none => []

/-- What several connections make the receiver allocate. -/
structure Footprint (L : Nat) (streams : List AsyncReadStream) (s s' : IprotoFraming) : Prop where
  /-- No allocation is large. -/
  grows : s.buffer.Grows L s'.buffer
  /-- Each connection pays for its bytes, for the buffer it starts with and for one message. -/
  sum_le : s'.buffer.sizes.sum + s'.buffer.used ≤ s.buffer.sizes.sum + s.buffer.used +
    (streams.map fun stream ↦ s.buffer.defaultLength + 4 * stream.received + 3 * L).sum

/-- The next connection costs at most the default length, and is lent its bytes. -/
theorem reconnect_sum_le (s : IprotoFraming) (stream : AsyncReadStream) :
    (s.reconnect stream).buffer.sizes.sum + (s.reconnect stream).potential ≤
      s.buffer.sizes.sum + s.buffer.used + (s.buffer.defaultLength + 4 * stream.received) := by
  obtain ⟨-, hready, hused, hsizes⟩ := s.buffer.clear_sizes
  show s.buffer.clear.sizes.sum +
    (s.buffer.clear.used + 3 * s.buffer.clear.ready + 4 * stream.received) ≤ _
  rcases hsizes with hsizes | hsizes
  · rw [hsizes, hready]
    omega
  · rw [hsizes, hready, List.sum_append, List.sum_singleton]
    omega

/-- What a life has allocated when it ends, by what was lent to it. -/
theorem Frugal.sum_le_of_start {ec : ErrorCode} {n : Nat} (h : Frugal L s s' ec)
    (hstart : s.buffer.sizes.sum + s.potential ≤ n) :
    s'.buffer.sizes.sum + s'.buffer.used ≤ n + 3 * L := by
  have hsum := h.sum_le
  have hused : s'.buffer.used ≤ s'.potential := by
    rw [potential, Nat.add_assoc]
    exact Nat.le_add_right _ _
  have hfailed : (if ec.failed then 3 * L else 0) ≤ 3 * L := by
    split_ifs
    · exact Nat.le_refl _
    · exact Nat.zero_le _
  omega

theorem lives_footprint {mp : Codec} (hL : 8 ≤ L) {streams : List AsyncReadStream}
    (hannounced : ∀ l ∈ announcements mp streams s, l ≤ L) (h : lives mp streams s = some s') :
    Footprint L streams s s' ∧ s'.Fits (announcements mp streams s) := by
  induction streams generalizing s with
  | nil =>
      cases h
      exact ⟨⟨.of_eq rfl rfl, Nat.le_refl _⟩, .nil _⟩
  | cons stream streams ih =>
      obtain ⟨t, ht, h⟩ := Option.bind_eq_some_iff.mp h
      rw [announcements, ht] at hannounced ⊢
      dsimp only at hannounced ⊢
      obtain ⟨⟨ec, hlife⟩, hfits⟩ :=
        life_frugal hL (fun l hl ↦ hannounced l (List.mem_append_left _ hl)) ht
      obtain ⟨hrest, hfits'⟩ := ih (fun l hl ↦ hannounced l (List.mem_append_right _ hl)) h
      have hgrows : s.buffer.Grows L t.buffer := s.buffer.clear_grows.trans hlife.grows
      refine ⟨⟨hgrows.trans hrest.grows, ?_⟩, (hfits.mono hrest.grows.sizes_subset).append hfits'⟩
      have hfirst := hlife.sum_le_of_start (s.reconnect_sum_le stream)
      have hsum := hrest.sum_le
      rw [hgrows.defaultLength_eq] at hsum
      rw [List.map_cons, List.sum_cons]
      omega

/-- Over any connections, whatever they deliver, there is an allocation for every message that
is announced, and none is larger than two announced messages and the default length.  All of
them together are bounded by the bytes that were sent, the default length for each connection
and one message for each, the one that it breaks off. -/
theorem allocations_bounded (mp : Codec) (defaultLength : Nat) (hL : 8 ≤ L)
    (streams : List AsyncReadStream) (hs : s.buffer = .new defaultLength)
    (hannounced : ∀ l ∈ announcements mp streams s, l ≤ L) (h : lives mp streams s = some s') :
    (∀ l ∈ announcements mp streams s, ∃ x ∈ s'.buffer.sizes, l ≤ x) ∧
      (∀ x ∈ s'.buffer.sizes, x ≤ defaultLength + 2 * L) ∧
      s'.buffer.sizes.sum ≤ defaultLength +
        (streams.map fun stream ↦ defaultLength + 4 * stream.received + 3 * L).sum := by
  obtain ⟨⟨⟨-, -, hle⟩, hsum⟩, hfits⟩ := lives_footprint hL hannounced h
  have hd : s.buffer.defaultLength = defaultLength := by
    rw [hs]
    rfl
  have hsizes : s.buffer.sizes = [defaultLength] := by
    rw [hs]
    rfl
  have hused : s.buffer.used = 0 := by
    rw [hs]
    exact Nat.sub_self defaultLength
  rw [hd, hsizes] at hle
  rw [hd, hsizes, hused, List.sum_singleton] at hsum
  refine ⟨hfits, fun x hx ↦ ?_, Nat.le_trans (Nat.le_add_right _ _) hsum⟩
  rcases hle x hx with hx | hx
  · rw [List.mem_singleton.mp hx]
    exact Nat.le_add_right _ _
  · exact hx

/-- A connection that announces sixteen bytes and sends two, and one that delivers a frame. -/
def brokenStreams : List AsyncReadStream :=
  [{ (ofBytes []).nextLayer with segments := [[0xce, 0, 0, 0], [16, 0x81, 0]] },
    { (ofBytes []).nextLayer with segments := [[0xce, 0, 0, 0, 4, 0x81], [0, 0, 0x80]] }]

/-- There is an allocation for the message that was broken off. -/
theorem allocations_bounded_brokenStreams :
    announcements .reference brokenStreams { ofBytes [] with buffer := .new 4 } = [16, 4] ∧
      ∃ s', lives .reference brokenStreams { ofBytes [] with buffer := .new 4 } = some s' ∧
        ∃ x ∈ s'.buffer.sizes, 16 ≤ x := by
  refine ⟨by decide, ?_⟩
  obtain ⟨s', hs'⟩ := Option.isSome_iff_exists.mp
    (show (lives .reference brokenStreams { ofBytes [] with buffer := .new 4 }).isSome from rfl)
  obtain ⟨hfits, -⟩ := allocations_bounded (L := 16) .reference 4 (by decide) brokenStreams rfl
    (by decide) hs'
  exact ⟨s', hs', hfits 16 (by decide)⟩

end IprotoFraming

end Tntpp
