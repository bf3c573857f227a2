import Tntpp.Detail.Sha1Compression

/-!
# Texts that are hashed in pieces

A context stands for the text it was given so far: its state is that of the whole blocks,
its buffer begins with what is left, and its two counters are the low words of the number of
bits.  `SHA1Update` keeps this however the text is cut, as long as the bytes that wait in the
buffer and those of the call are counted by 32 bits, and `SHA1Final` appends the padding of
the standard.  So the hash of any text passed in any pieces is the SHA-1 of the text.
-/

namespace Tntpp

open BigEndian Block BlockHash

namespace Sha1

/-! ## Whole blocks -/

/-- Writes in front of a position leave what is behind it. -/
theorem drop_overwrite {l xs : List UInt8} {i m : Nat} (h : i + xs.length ≤ m)
    (hm : m ≤ l.length) : (overwrite l i xs).drop m = l.drop m := by
  have hlen : (l.take i ++ xs).length = i + xs.length := by
    rw [List.length_append, List.length_take_of_le (by omega)]
  have hsum : i + xs.length + (m - (i + xs.length)) = m := by omega
  rw [overwrite, List.drop_append, List.drop_of_length_le (by omega), List.nil_append, hlen,
    List.drop_drop, hsum]

section

variable (state : State) {data : List UInt8}

/-- The loop of `SHA1Update` absorbs the blocks it finds, and what is behind them stays. -/
theorem transformBlocks_eq {i n : Nat} (h : i + 64 * n ≤ data.length) :
    (transformBlocks state data i n).1.variables =
        absorb SecureHash.compress 64 n state.variables (data.drop i) ∧
      (transformBlocks state data i n).2.drop (i + 64 * n) = data.drop (i + 64 * n) := by
  induction n generalizing state data i with
  | zero => exact ⟨rfl, rfl⟩
  | succ n ih =>
      have hslice : (slice data i 64).length = 64 := length_slice (by omega)
      obtain ⟨state', block, hpair, hblock, hstate'⟩ : ∃ state' block,
          sha1Transform state (slice data i 64) = (state', block) ∧ block.length = 64 ∧
            state'.variables = SecureHash.compress state.variables (slice data i 64) :=
        ⟨_, _, Prod.mk.eta.symm, length_sha1Transform state hslice,
          sha1Transform_variables hslice state⟩
      have hlength : (overwrite data i block).length = data.length := length_overwrite (by omega)
      have hindex : i + 64 + 64 * n = i + 64 * (n + 1) := by omega
      obtain ⟨hstate, hrest⟩ := @ih state' (overwrite data i block) (i + 64) (by omega)
      rw [drop_overwrite (by omega) (by omega), ← List.drop_drop, hstate'] at hstate
      rw [drop_overwrite (by omega) (by omega), hindex] at hrest
      rw [transformBlocks, hpair]
      exact ⟨hstate, hrest⟩

end

/-! ## The counters -/

/-- The counters of a text of `n` bytes. -/
def counters (n : Nat) : Word × Word := (.ofNat 32 (8 * n), .ofNat 32 (8 * n / 2 ^ 32))

/-- The carry of `SHA1Update` is that of the sum. -/
theorem counters_add (n : Nat) (len : Word) :
    ((counters n).1 + len <<< 3,
      (if (counters n).1 + len <<< 3 < (counters n).1 then (counters n).2 + 1
        else (counters n).2) + len >>> 29) = counters (n + len.toNat) := by
  have hshift : (len <<< 3).toNat = 8 * len.toNat % 2 ^ 32 := by
    rw [BitVec.toNat_shiftLeft, Nat.shiftLeft_eq, Nat.mul_comm]
  have hhigh : (len >>> 29).toNat = 8 * len.toNat / 2 ^ 32 := by
    rw [BitVec.toNat_ushiftRight, Nat.shiftRight_eq_div_pow]
    omega
  have hlow : ((counters n).1 + len <<< 3).toNat = 8 * (n + len.toNat) % 2 ^ 32 := by
    rw [BitVec.toNat_add, hshift, counters, BitVec.toNat_ofNat]
    omega
  have hcarry : (counters n).1 + len <<< 3 < (counters n).1 ↔
      8 * (n + len.toNat) % 2 ^ 32 < 8 * n % 2 ^ 32 := by
    rw [BitVec.lt_def, hlow, counters, BitVec.toNat_ofNat]
  refine Prod.ext (BitVec.eq_of_toNat_eq ?_) (BitVec.eq_of_toNat_eq ?_)
  · rw [hlow, counters, BitVec.toNat_ofNat]
  · simp only [hcarry]
    have hlt : len.toNat < 2 ^ 32 := len.isLt
    split
    · next hc =>
        rw [BitVec.toNat_add, BitVec.toNat_add, hhigh, counters, counters, BitVec.toNat_ofNat,
          BitVec.toNat_ofNat]
        change ((8 * n / 2 ^ 32 % 2 ^ 32 + 1) % 2 ^ 32 + 8 * len.toNat / 2 ^ 32) % 2 ^ 32 = _
        omega
    · next hc =>
        rw [BitVec.toNat_add, hhigh, counters, counters, BitVec.toNat_ofNat, BitVec.toNat_ofNat]
        omega

/-- The bytes that wait in the buffer. -/
theorem counters_waiting (n : Nat) : ((counters n).1 >>> 3 &&& 63).toNat = n % 64 := by
  have hmask : ((counters n).1 >>> 3).toNat &&& 63 = ((counters n).1 >>> 3).toNat % 64 :=
    Nat.and_two_pow_sub_one_eq_mod _ 6
  rw [BitVec.toNat_and]
  change ((counters n).1 >>> 3).toNat &&& 63 = _
  rw [hmask, BitVec.toNat_ushiftRight, Nat.shiftRight_eq_div_pow, counters, BitVec.toNat_ofNat]
  omega

/-- What `SHA1Final` makes of the counters. -/
theorem bytes_counters (n : Nat) :
    bytes 4 (counters n).2.toNat ++ bytes 4 (counters n).1.toNat = bytes 8 (8 * n) := by
  have hhigh : bytes 4 (8 * n / 2 ^ 32 % 256 ^ 4) = bytes 4 (8 * n / 2 ^ 32) := bytes_mod 4 _
  have hlow : bytes 4 (8 * n % 256 ^ 4) = bytes 4 (8 * n) := bytes_mod 4 _
  have hpow : 256 ^ 4 = 2 ^ 32 := by decide
  rw [hpow] at hhigh hlow
  rw [counters, BitVec.toNat_ofNat, BitVec.toNat_ofNat, hhigh, hlow]
  simp [bytes_succ, Nat.div_div_eq_div_mul]

/-! ## Contexts -/

/-- What was written ends where the next write begins. -/
theorem take_overwrite_end {l xs : List UInt8} {i n : Nat} (hi : i ≤ l.length)
    (hn : i + xs.length = n) : (overwrite l i xs).take n = l.take i ++ xs := by
  have hlen : (l.take i ++ xs).length = n := by
    rw [List.length_append, List.length_take_of_le hi, hn]
  rw [overwrite, List.take_left' hlen]

/-- A context that was given a text, in any pieces. -/
structure Represents (ctx : Ctx) (text : List UInt8) : Prop where
  /-- Its state is that of the whole blocks. -/
  state : ctx.state.variables = absorbed SecureHash.compress 64 SecureHash.initial text
  /-- What is left of the text waits in the buffer. -/
  waiting : ctx.buffer.take (text.length % 64) = rest 64 text
  /-- The buffer holds a block. -/
  length_buffer : ctx.buffer.length = 64
  /-- The bits are counted. -/
  count : ctx.count = counters text.length

theorem represents_sha1Init : Represents sha1Init [] := ⟨rfl, rfl, rfl, rfl⟩

section

variable {ctx : Ctx} {text data : List UInt8} {len : Word}

/-- A call that fills no block. -/
theorem Represents.update_short (h : Represents ctx text) (hlen : len.toNat = data.length)
    (hfit : text.length % 64 + data.length < 64) :
    Represents
      ⟨ctx.state, counters (text.length + data.length),
        overwrite ctx.buffer (text.length % 64) (data.take len.toNat)⟩ (text ++ data) := by
  have hrest : (rest 64 text ++ data).length < 64 := by
    rw [List.length_append, length_rest]
    exact hfit
  obtain ⟨hstate, hleft⟩ :=
    absorbed_of_lt SecureHash.compress
      (absorbed SecureHash.compress 64 SecureHash.initial text) hrest
  have hdata : data.take len.toNat = data := List.take_of_length_le (Nat.le_of_eq hlen.symm)
  have hmod : (text ++ data).length % 64 = text.length % 64 + data.length := by
    rw [List.length_append]
    omega
  have hle : text.length % 64 ≤ ctx.buffer.length := by
    rw [h.length_buffer]
    omega
  rw [hdata]
  constructor
  case state => rw [absorbed_append _ _ _ _ (by decide), hstate, h.state]
  case waiting =>
    rw [rest_append _ _ (by decide), hleft, ← h.waiting, hmod]
    exact take_overwrite_end hle rfl
  case length_buffer =>
    refine (length_overwrite ?_).trans h.length_buffer
    rw [h.length_buffer]
    exact Nat.le_of_lt hfit
  case count => rw [List.length_append]

/-- A call that fills a block: the blocks behind it are absorbed where they lie. -/
theorem Represents.update_fill (h : Represents ctx text) (hlen : len.toNat = data.length)
    (hfill : 64 ≤ text.length % 64 + data.length) {i n : Nat} (hi : i = 64 - text.length % 64)
    (hn : n = (len.toNat - i) / 64) {state state' : State} {buffer data' : List UInt8}
    (hfirst : sha1Transform ctx.state
      (overwrite ctx.buffer (text.length % 64) (data.take i)) = (state, buffer))
    (hblocks : transformBlocks state data i n = (state', data')) :
    Represents
      ⟨state', counters (text.length + data.length),
        overwrite buffer 0 (slice data' (i + 64 * n) (len.toNat - (i + 64 * n)))⟩
      (text ++ data) := by
  have htake : (data.take i).length = i := List.length_take_of_le (by omega)
  have hwaiting : text.length % 64 ≤ ctx.buffer.length := by
    rw [h.length_buffer]
    omega
  -- the block that is filled up
  have hblock : overwrite ctx.buffer (text.length % 64) (data.take i) =
      rest 64 text ++ data.take i := by
    rw [← h.waiting, ← take_overwrite_end hwaiting rfl, htake]
    refine (List.take_of_length_le ?_).symm
    rw [length_overwrite (by rw [h.length_buffer]; omega), h.length_buffer]
    omega
  have hlength : (rest 64 text ++ data.take i).length = 64 := by
    rw [List.length_append, length_rest, htake]
    omega
  have hsplit : rest 64 text ++ data = (rest 64 text ++ data.take i) ++ data.drop i := by
    rw [List.append_assoc, List.take_append_drop]
  obtain ⟨hstate, hleft⟩ := absorbed_fill SecureHash.compress
    (absorbed SecureHash.compress 64 SecureHash.initial text) (data.drop i) hlength (by decide)
  rw [← hsplit, ← absorbed_append _ _ _ _ (by decide)] at hstate
  rw [← hsplit, ← rest_append _ _ (by decide)] at hleft
  have hdrop : (data.drop i).length / 64 = n := by rw [List.length_drop, hn, hlen]
  have hcompress := sha1Transform_variables hlength ctx.state
  have hbuffer := length_sha1Transform ctx.state hlength
  obtain ⟨habsorb, hbehind⟩ :=
    transformBlocks_eq state (show i + 64 * n ≤ data.length by omega)
  rw [hblock] at hfirst
  rw [hfirst] at hcompress hbuffer
  rw [hblocks] at habsorb hbehind
  dsimp only at hcompress hbuffer habsorb hbehind
  have hslice : slice data' (i + 64 * n) (len.toNat - (i + 64 * n)) = rest 64 (text ++ data) := by
    rw [slice, hbehind, hleft, hdrop, List.drop_drop]
    refine List.take_of_length_le ?_
    rw [List.length_drop, hlen]
  have hmod : (rest 64 (text ++ data)).length = (text ++ data).length % 64 := length_rest _
  have hlt : (text ++ data).length % 64 < 64 := Nat.mod_lt _ (by decide)
  rw [hslice]
  constructor
  case state => rw [hstate, hdrop, ← h.state, ← hcompress, habsorb]
  case waiting => exact take_overwrite_end (Nat.zero_le _) (by rw [hmod, Nat.zero_add])
  case length_buffer =>
    refine (length_overwrite ?_).trans hbuffer
    rw [hmod, hbuffer, Nat.zero_add]
    exact Nat.le_of_lt hlt
  case count => rw [List.length_append]

/-- `SHA1Update` appends to the text. -/
theorem Represents.update (h : Represents ctx text) (hlen : len.toNat = data.length)
    (hfit : text.length % 64 + data.length < 2 ^ 32) :
    Represents (sha1Update ctx data len).1 (text ++ data) := by
  have hj : (ctx.count.1 >>> 3 &&& 63).toNat = text.length % 64 := by
    rw [h.count, counters_waiting]
  have hsum : (63 : Word) < (ctx.count.1 >>> 3 &&& 63) + len ↔
      64 ≤ text.length % 64 + data.length := by
    rw [BitVec.lt_def, BitVec.toNat_add, hj, hlen, Nat.mod_eq_of_lt hfit]
    exact Iff.rfl
  have hcount := counters_add text.length len
  rw [← h.count, hlen] at hcount
  rw [sha1Update]
  dsimp only
  rw [hcount, hj]
  split
  · next hfill =>
      rw [hsum] at hfill
      exact h.update_fill hlen hfill rfl rfl Prod.mk.eta.symm Prod.mk.eta.symm
  · next hshort =>
      rw [hsum] at hshort
      exact h.update_short hlen (Nat.lt_of_not_le hshort)

end

/-! ## The padding -/

/-- The condition of the loop of `SHA1Final`, of a context that represents a text. -/
theorem Represents.and_504_eq_iff {ctx : Ctx} {text : List UInt8} (h : Represents ctx text) :
    ctx.count.1 &&& 504 = 448 ↔ text.length % 64 = 56 := by
  rw [Sha1.and_504_eq_iff, h.count, counters, BitVec.toNat_ofNat]
  omega

/-- The loop appends zeros until eight bytes are left of a block. -/
theorem Represents.padZeros {n k : Nat} {ctx : Ctx} {text : List UInt8} (h : Represents ctx text)
    (hk : k = (120 - text.length % 64) % 64) (hn : k ≤ n) :
    Represents (padZeros n ctx) (text ++ List.replicate k 0) := by
  induction n generalizing k ctx text with
  | zero =>
      obtain rfl : k = 0 := Nat.le_zero.mp hn
      rw [List.replicate_zero, List.append_nil]
      exact h
  | succ n ih =>
      rw [Sha1.padZeros]
      cases k with
      | zero =>
          have hdone : text.length % 64 = 56 := by omega
          rw [if_neg (not_not_intro (h.and_504_eq_iff.mpr hdone)), List.replicate_zero,
            List.append_nil]
          exact h
      | succ k =>
          have hgo : text.length % 64 ≠ 56 := by omega
          have hbyte : Represents (sha1Update ctx [0] 1).1 (text ++ [0]) := by
            refine h.update rfl ?_
            rw [List.length_singleton]
            omega
          have hlen : (text ++ [0]).length = text.length + 1 := List.length_append
          rw [if_pos (mt h.and_504_eq_iff.mp hgo), List.replicate_succ, List.append_cons]
          exact ih hbyte (by rw [hlen]; omega) (Nat.le_of_succ_le_succ hn)

/-- `SHA1Final` pads the text and returns its hash. -/
theorem Represents.sha1Final {ctx : Ctx} {text : List UInt8} (h : Represents ctx text) :
    sha1Final ctx = SecureHash.sha1 text := by
  have hfinalcount : bytes 4 ctx.count.2.toNat ++ bytes 4 ctx.count.1.toNat =
      bytes 8 (8 * text.length) := by
    rw [h.count, bytes_counters]
  have hmark : Represents (sha1Update ctx [0x80] 1).1 (text ++ [0x80]) := by
    refine h.update rfl ?_
    rw [List.length_singleton]
    omega
  have hlen : (text ++ [0x80]).length = text.length + 1 := List.length_append
  have hzeros : Represents (Sha1.padZeros 64 (sha1Update ctx [0x80] 1).1)
      (text ++ [0x80] ++ List.replicate (SecureHash.zeros text.length) 0) := by
    refine hmark.padZeros ?_ ?_
    · rw [SecureHash.zeros, hlen]
      omega
    · rw [SecureHash.zeros]
      omega
  have hall : Represents
      (sha1Update (Sha1.padZeros 64 (sha1Update ctx [0x80] 1).1) (bytes 8 (8 * text.length)) 8).1
      (text ++ SecureHash.padding text.length) := by
    have hcount : (8 : BitVec 32).toNat = (bytes 8 (8 * text.length)).length :=
      (length_bytes 8 _).symm
    have hdone := hzeros.update hcount (by rw [length_bytes]; omega)
    simpa [SecureHash.padding] using hdone
  rw [Sha1.sha1Final, hfinalcount, SecureHash.sha1, ← hall.state]
  rfl

/-! ## Hashing in pieces -/

/-- `SHA1Update` of one piece after the other. -/
def updates (ctx : Ctx) (pieces : List (List UInt8)) : Ctx :=
  pieces.foldl (fun ctx piece ↦ (sha1Update ctx piece (.ofNat 32 piece.length)).1) ctx

theorem Represents.updates {pieces : List (List UInt8)} {ctx : Ctx} {text : List UInt8}
    (h : Represents ctx text) (hpieces : ∀ piece ∈ pieces, piece.length + 64 ≤ 2 ^ 32) :
    Represents (updates ctx pieces) (text ++ pieces.flatten) := by
  induction pieces generalizing ctx text with
  | nil =>
      rw [List.flatten_nil, List.append_nil]
      exact h
  | cons piece pieces ih =>
      obtain ⟨hpiece, hpieces⟩ := List.forall_mem_cons.mp hpieces
      have hlen : (BitVec.ofNat 32 piece.length).toNat = piece.length := by
        rw [BitVec.toNat_ofNat]
        exact Nat.mod_eq_of_lt (by omega)
      have hnext := ih (h.update hlen (by omega)) hpieces
      rw [List.append_assoc] at hnext
      exact hnext

/-- Whatever the pieces a text is passed in, the hash is the SHA-1 of the text. -/
theorem sha1Final_updates (pieces : List (List UInt8))
    (hpieces : ∀ piece ∈ pieces, piece.length + 64 ≤ 2 ^ 32) :
    sha1Final (updates sha1Init pieces) = SecureHash.sha1 pieces.flatten :=
  (represents_sha1Init.updates hpieces).sha1Final

/-- Seventy bytes and sixty more, which fill two blocks and begin a third. -/
theorem sha1Final_updates_two :
    sha1Final (updates sha1Init [List.replicate 70 0x61, List.replicate 60 0x62]) =
      SecureHash.sha1 [List.replicate 70 0x61, List.replicate 60 0x62].flatten :=
  sha1Final_updates [List.replicate 70 0x61, List.replicate 60 0x62]
    (List.forall_mem_cons.mpr ⟨by decide, List.forall_mem_singleton.mpr (by decide)⟩)

end Sha1

end Tntpp
