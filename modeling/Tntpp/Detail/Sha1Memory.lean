import Tntpp.Detail.Sha1Expansion

/-!
# What hashing does to its input

`SHA1Update` copies the first block of its input into the context and expands the others
where they are.  It leaves them alone only where they are zero.
-/

namespace Tntpp

open BigEndian Block

namespace Sha1

/-! ## Words and their bytes -/

theorem exists_bytes_reverse (w : Word) :
    ∃ a b c d, (bytes 4 w.toNat).reverse = [a, b, c, d] ∧
      BitVec.ofNat 32 (value [d, c, b, a]) = w := by
  refine ⟨_, _, _, _, rfl, ?_⟩
  have hvalue := value_bytes (w := 4) w.isLt
  change value [_, _, _, _] = _ at hvalue
  rw [hvalue, BitVec.ofNat_toNat, BitVec.setWidth_eq]

theorem words_unwords (ws : List Word) : words (unwords ws) = ws := by
  induction ws with
  | nil => rfl
  | cons w ws ih =>
      obtain ⟨a, b, c, d, hbytes, hword⟩ := exists_bytes_reverse w
      rw [unwords, List.flatMap_cons, hbytes]
      change BitVec.ofNat 32 (value [d, c, b, a]) :: words (unwords ws) = _
      rw [hword, ih]

theorem length_unwords (ws : List Word) : (unwords ws).length = 4 * ws.length := by
  induction ws with
  | nil => rfl
  | cons w ws ih =>
      rw [unwords, List.flatMap_cons, List.length_append, List.length_reverse, length_bytes,
        List.length_cons, Nat.mul_succ, Nat.add_comm]
      exact congrArg (· + 4) ih

theorem unwords_words {n : Nat} {bs : List UInt8} (h : bs.length = 4 * n) :
    unwords (words bs) = bs ∧ (words bs).length = n := by
  induction n generalizing bs with
  | zero =>
      cases List.length_eq_zero_iff.mp h
      exact ⟨rfl, rfl⟩
  | succ n ih =>
      match bs, h with
      | a :: b :: c :: d :: bs, h =>
          have hbs : bs.length = 4 * n := by
            simp only [List.length_cons] at h
            omega
          obtain ⟨hbytes, hlength⟩ := ih hbs
          have hlt : value [d, c, b, a] < 256 ^ 4 := value_lt [d, c, b, a]
          have hpow : 256 ^ 4 = 2 ^ 32 := by decide
          rw [hpow] at hlt
          have hword : bytes 4 (value [d, c, b, a]) = [d, c, b, a] := bytes_value [d, c, b, a]
          refine ⟨?_, congrArg Nat.succ hlength⟩
          rw [words, unwords, List.flatMap_cons, BitVec.toNat_ofNat, Nat.mod_eq_of_lt hlt, hword]
          exact congrArg ([a, b, c, d] ++ ·) hbytes

/-! ## One block -/

theorem sha1Transform_snd (state : State) (buffer : List UInt8) :
    (sha1Transform state buffer).2 = unwords (expanded (words buffer) 80) := by
  rw [← rounds_fst (words buffer) state, sha1Transform]

section

variable (state : State) {buffer data : List UInt8}

theorem length_sha1Transform (h : buffer.length = 64) : (sha1Transform state buffer).2.length = 64 := by
  rw [sha1Transform_snd, length_unwords, length_expanded, (unwords_words (n := 16) h).2]

/-- A block survives `SHA1Transform` if and only if it is zero. -/
theorem sha1Transform_snd_eq_iff (h : buffer.length = 64) :
    (sha1Transform state buffer).2 = buffer ↔ buffer = List.replicate 64 0 := by
  obtain ⟨hbytes, hlength⟩ := unwords_words (n := 16) h
  have hzero : unwords (List.replicate 16 0) = List.replicate 64 0 := rfl
  rw [sha1Transform_snd]
  constructor
  · intro heq
    have hwords := congrArg words heq
    rw [words_unwords, expanded_eq_iff hlength] at hwords
    rw [← hbytes, hwords, hzero]
  · rintro rfl
    have hwords : words (List.replicate 64 0) = List.replicate 16 0 := rfl
    rw [hwords, expanded_replicate, hzero]

/-! ## Several blocks -/

/-- A step of the loop of `SHA1Update`, in terms of the block it leaves behind. -/
theorem transformBlocks_succ {i n : Nat} (h : i + 64 * (n + 1) ≤ data.length) :
    ∃ state' block, transformBlocks state data i (n + 1) =
        transformBlocks state' (overwrite data i block) (i + 64) n ∧
      block.length = 64 ∧ (overwrite data i block).length = data.length ∧
      (block = slice data i 64 ↔ slice data i 64 = List.replicate 64 0) := by
  have hslice : (slice data i 64).length = 64 := length_slice (by omega)
  have hblock := length_sha1Transform state hslice
  refine ⟨(sha1Transform state (slice data i 64)).1, (sha1Transform state (slice data i 64)).2, ?_,
    hblock, length_overwrite (by omega), sha1Transform_snd_eq_iff state hslice⟩
  rw [transformBlocks]

/-- The loop keeps what is in front of it. -/
theorem take_transformBlocks {i n m : Nat} (h : i + 64 * n ≤ data.length) (hm : m ≤ i) :
    (transformBlocks state data i n).2.take m = data.take m := by
  induction n generalizing state data i with
  | zero => rfl
  | succ n ih =>
      obtain ⟨state', block, hstep, -, hlength, -⟩ := transformBlocks_succ state h
      rw [hstep, ih state' (by omega) (by omega), take_overwrite hm (by omega)]

/-- The loop keeps the data if and only if the blocks it meets are zero. -/
theorem transformBlocks_snd_eq_iff {i n : Nat} (h : i + 64 * n ≤ data.length) :
    (transformBlocks state data i n).2 = data ↔
      ∀ k, k < n → slice data (i + 64 * k) 64 = List.replicate 64 0 := by
  induction n generalizing state data i with
  | zero => exact iff_of_true rfl fun k hk ↦ absurd hk (Nat.not_lt_zero k)
  | succ n ih =>
      obtain ⟨state', block, hstep, hblock, hlength, hzero⟩ := transformBlocks_succ state h
      have hbound : i + 64 + 64 * n ≤ data.length := by omega
      have hindex : ∀ k, i + 64 + 64 * k = i + 64 * (k + 1) := by omega
      rw [hstep]
      constructor
      · intro heq
        -- what the first step wrote is not touched again
        have htake := take_transformBlocks state' (hlength.symm ▸ hbound) (Nat.le_refl (i + 64))
        rw [heq] at htake
        have hsame : block = slice data i 64 := by
          rw [slice_eq_of_take_eq htake (Nat.le_refl (i + 64)), ← hblock]
          exact (slice_overwrite_self (by omega)).symm
        have hdata : overwrite data i block = data := by
          rw [hsame]
          exact overwrite_slice (by omega)
        rw [hdata, ih state' hbound] at heq
        rintro (_ | k) hk
        · exact hzero.mp hsame
        · rw [← hindex]
          exact heq k (Nat.lt_of_succ_lt_succ hk)
      · intro hall
        have hsame : block = slice data i 64 := hzero.mpr (hall 0 (Nat.succ_pos n))
        have hdata : overwrite data i block = data := by
          rw [hsame]
          exact overwrite_slice (by omega)
        rw [hdata, ih state' hbound]
        intro k hk
        rw [hindex]
        exact hall (k + 1) (Nat.succ_lt_succ hk)

/-! ## The input of a hash -/

/-- The first bytes of an input from byte 64 on that fill whole blocks are zero. -/
def ZeroBlocks (data : List UInt8) (len : Nat) : Prop :=
  ∀ i, 64 ≤ i → i < 64 * (len / 64) → data[i]? = some 0

theorem zeroBlocks_iff {len : Nat} (h : len ≤ data.length) :
    ZeroBlocks data len ↔
      ∀ k, k < (len - 64) / 64 → slice data (64 + 64 * k) 64 = List.replicate 64 0 := by
  constructor
  · intro hzero k hk
    rw [slice_eq_replicate_iff (by omega)]
    intro m hm
    exact hzero _ (by omega) (by omega)
  · intro hall i hi hlt
    have hblock := hall ((i - 64) / 64) (by omega)
    rw [slice_eq_replicate_iff (by omega)] at hblock
    have hget := hblock (i % 64) (Nat.mod_lt _ (by decide))
    have hindex : 64 + 64 * ((i - 64) / 64) + i % 64 = i := by omega
    rwa [hindex] at hget

/-- Hashing an input in one call keeps it if and only if its whole blocks are zero, apart
from the first. -/
theorem sha1Update_init_snd_eq_iff {len : Word} (h : len.toNat ≤ data.length) :
    (sha1Update sha1Init data len).2 = data ↔ ZeroBlocks data len.toNat := by
  have hj : (sha1Init.count.1 >>> 3 &&& 63 : Word) = 0 := by decide
  have hadd : 0 + len = len := BitVec.zero_add len
  rw [sha1Update, hj, hadd]
  by_cases hlen : 63 < len.toNat
  · have hlt : (63 : Word) < len := hlen
    have hblocks : 64 + 64 * ((len.toNat - 64) / 64) ≤ data.length := by omega
    rw [if_pos hlt]
    dsimp only
    generalize sha1Transform sha1Init.state _ = r
    change (transformBlocks r.1 data 64 ((len.toNat - 64) / 64)).2 = data ↔ _
    rw [transformBlocks_snd_eq_iff _ hblocks, zeroBlocks_iff h]
  · have hlt : ¬ (63 : Word) < len := hlen
    rw [if_neg hlt]
    exact iff_of_true rfl fun i hi hlt ↦ by omega

end

end Sha1

end Tntpp
