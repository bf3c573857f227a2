import Tntpp.Base.BigEndian
import Tntpp.Base.Block

/-!
# SHA-1

`sha1.h`, on a little-endian machine.  The file is compiled without `SHA1HANDSOFF`, so
`SHA1Transform` expands a block in the memory it was given: it returns that memory next to
the state, and so does `SHA1Update` for the memory its caller has passed.

The two loops with a condition have a bound here.  `SHA1Update` takes whole blocks while
there are any, so their number is a quotient; it is called with a fresh context or with a
few bytes, and its counter never passes `2 ^ 32`.  `SHA1Final` appends zeros until eight
bytes are left of a block, which takes less than 64.
-/

namespace Tntpp

open BigEndian Block

/-- `uint32_t`. -/
abbrev Word := BitVec 32

namespace Sha1

/-- `rol`. -/
def rol (value : Word) (bits : Nat) : Word := value <<< bits ||| value >>> (32 - bits)

/-- The five words of a state, or the working variables of a round in the order in which
its macro takes them. -/
structure State where
  a : Word
  b : Word
  c : Word
  d : Word
  e : Word
deriving DecidableEq, Repr

/-- `SHA1_CTX`. -/
structure Ctx where
  /-- The state. -/
  state : State
  /-- The number of bits so far, low word first. -/
  count : Word × Word
  /-- The bytes of a block that is not complete. -/
  buffer : List UInt8

/-! ## The words of a block -/

/-- The words that bytes in memory are. -/
def words : List UInt8 → List Word
  | a :: b :: c :: d :: bs => .ofNat 32 (value [d, c, b, a]) :: words bs
  | _ => []

/-- The bytes of words in memory. -/
def unwords (ws : List Word) : List UInt8 := ws.flatMap fun w ↦ (bytes 4 w.toNat).reverse

/-- The value of `blk0`: the bytes of a word in the other order. -/
def swap (l : Word) : Word := rol l 24 &&& 0xff00ff00 ||| rol l 8 &&& 0x00ff00ff

/-- `blk0`. -/
def blk0 (block : List Word) (i : Nat) : List Word := block.set i (swap (block.getD i 0))

/-- `blk`. -/
def blk (block : List Word) (i : Nat) : List Word :=
  block.set (i % 16)
    (rol (block.getD ((i + 13) % 16) 0 ^^^ block.getD ((i + 8) % 16) 0 ^^^
      block.getD ((i + 2) % 16) 0 ^^^ block.getD (i % 16) 0) 1)

/-- What a round does to the block: `R0` uses `blk0`, the others `blk`. -/
def expandAt (block : List Word) (i : Nat) : List Word :=
  if i < 16 then blk0 block i else blk block i

/-! ## The rounds -/

/-- The function and the constant of a round: `R0` and `R1`, `R2`, `R3`, and `R4`. -/
def mix (i : Nat) (w x y : Word) : Word :=
  if i < 20 then ((w &&& (x ^^^ y)) ^^^ y) + 0x5a827999
  else if i < 40 then (w ^^^ x ^^^ y) + 0x6ed9eba1
  else if i < 60 then (((w ||| x) &&& y) ||| (w &&& x)) + 0x8f1bbcdc
  else (w ^^^ x ^^^ y) + 0xca62c1d6

/-- One round.  The next one takes the variables in the order they are returned in. -/
def round (i : Nat) (block : List Word) (s : State) : List Word × State :=
  let block := expandAt block i
  let e := s.e + mix i s.b s.c s.d + block.getD (i % 16) 0 + rol s.a 5
  (block, ⟨e, s.a, rol s.b 30, s.c, s.d⟩)

/-- The first rounds. -/
def rounds (block : List Word) (s : State) : Nat → List Word × State
  | 0 => (block, s)
  | i + 1 =>
      let (block, s) := rounds block s i
      round i block s

/-- `SHA1Transform`: the new state, and what it leaves in the memory of the block. -/
def sha1Transform (state : State) (buffer : List UInt8) : State × List UInt8 :=
  let (block, s) := rounds (words buffer) state 80
  (⟨state.a + s.a, state.b + s.b, state.c + s.c, state.d + s.d, state.e + s.e⟩, unwords block)

/-! ## Hashing -/

/-- `SHA1Init` of a context; what its buffer holds is not read before it is written. -/
def sha1Init : Ctx where
  state := ⟨0x67452301, 0xefcdab89, 0x98badcfe, 0x10325476, 0xc3d2e1f0⟩
  count := (0, 0)
  buffer := List.replicate 64 0

/-- The loop of `SHA1Update` over `n` blocks of the memory `data`. -/
def transformBlocks (state : State) (data : List UInt8) (i : Nat) : Nat → State × List UInt8
  | 0 => (state, data)
  | n + 1 =>
      let (state, block) := sha1Transform state (slice data i 64)
      transformBlocks state (overwrite data i block) (i + 64) n

/-- `SHA1Update`: the context, and what is left in the memory `data`. -/
def sha1Update (ctx : Ctx) (data : List UInt8) (len : Word) : Ctx × List UInt8 :=
  let j := ctx.count.1
  let low := j + len <<< 3
  let high := (if low < j then ctx.count.2 + 1 else ctx.count.2) + len >>> 29
  let j := j >>> 3 &&& 63
  if 63 < j + len then
    let i := 64 - j.toNat
    let (state, buffer) := sha1Transform ctx.state (overwrite ctx.buffer j.toNat (data.take i))
    let n := (len.toNat - i) / 64
    let (state, data) := transformBlocks state data i n
    let i := i + 64 * n
    (⟨state, (low, high), overwrite buffer 0 (slice data i (len.toNat - i))⟩, data)
  else
    (⟨ctx.state, (low, high), overwrite ctx.buffer j.toNat (data.take len.toNat)⟩, data)

/-- The loop of `SHA1Final`. -/
def padZeros : Nat → Ctx → Ctx
  | 0, ctx => ctx
  | n + 1, ctx =>
      if ctx.count.1 &&& 504 ≠ 448 then padZeros n (sha1Update ctx [0] 1).1 else ctx

/-- `SHA1Final`. -/
def sha1Final (ctx : Ctx) : List UInt8 :=
  let finalcount := bytes 4 ctx.count.2.toNat ++ bytes 4 ctx.count.1.toNat
  let ctx := (sha1Update ctx [0x80] 1).1
  let ctx := padZeros 64 ctx
  let ctx := (sha1Update ctx finalcount 8).1
  [ctx.state.a, ctx.state.b, ctx.state.c, ctx.state.d, ctx.state.e].flatMap fun w ↦ bytes 4 w.toNat

/-! ## Padding -/

theorem count_sha1Update (ctx : Ctx) (data : List UInt8) (len : Word) :
    (sha1Update ctx data len).1.count.1 = ctx.count.1 + len <<< 3 := by
  rw [sha1Update]
  split <;> rfl

/-- The condition of the loop of `SHA1Final`, in bytes. -/
theorem and_504_eq_iff (c : Word) : c &&& 504 = 448 ↔ c.toNat / 8 % 64 = 56 := by
  have hmask : c.toNat &&& 504 = (c.toNat / 8 % 64) <<< 3 := by
    have hmod : c.toNat / 8 % 64 = c.toNat >>> 3 &&& 63 := by
      rw [Nat.shiftRight_eq_div_pow]
      exact (Nat.and_two_pow_sub_one_eq_mod (c.toNat / 8) 6).symm
    rw [hmod]
    apply Nat.eq_of_testBit_eq
    intro i
    rw [Nat.testBit_shiftLeft, Nat.testBit_and, Nat.testBit_and, Nat.testBit_shiftRight]
    rcases Nat.lt_or_ge i 3 with hi | hi
    · -- the mask has no bits there
      have hbit : (504).testBit i = false := by
        match i, hi with
        | 0, _ => rfl
        | 1, _ => rfl
        | 2, _ => rfl
      simp [hbit, Nat.not_le_of_lt hi]
    · obtain ⟨k, rfl⟩ := Nat.exists_eq_add_of_le hi
      have hbit : (504).testBit (3 + k) = (63).testBit k := (Nat.testBit_shiftRight (504)).symm
      rw [hbit, Nat.add_sub_cancel_left, decide_eq_true hi, Bool.true_and]
  rw [← BitVec.toNat_inj, BitVec.toNat_and]
  change c.toNat &&& 504 = 448 ↔ _
  rw [hmask]
  omega

theorem padZeros_spec {n : Nat} {ctx : Ctx} (h : (120 - ctx.count.1.toNat / 8 % 64) % 64 ≤ n) :
    (padZeros n ctx).count.1 &&& 504 = 448 := by
  induction n generalizing ctx with
  | zero =>
      rw [padZeros, and_504_eq_iff]
      omega
  | succ n ih =>
      rw [padZeros]
      by_cases hc : ctx.count.1 &&& 504 = 448
      · rw [if_neg (not_not_intro hc)]
        exact hc
      · rw [if_pos hc]
        apply ih
        rw [and_504_eq_iff] at hc
        rw [count_sha1Update, BitVec.toNat_add]
        change (120 - (ctx.count.1.toNat + 8) % 2 ^ 32 / 8 % 64) % 64 ≤ n
        omega

/-- The bound is enough: the loop has ended, with eight bytes left of a block. -/
theorem padZeros_done (ctx : Ctx) : (padZeros 64 ctx).count.1 &&& 504 = 448 := by
  apply padZeros_spec
  omega

end Sha1

end Tntpp
