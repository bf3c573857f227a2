import Mathlib.Data.List.GetD
import Tntpp.Base.BigEndian
import Tntpp.Base.BlockHash

/-!
# The Secure Hash Algorithm

SHA-1 as the Secure Hash Standard defines it: a text is padded to whole blocks of 64 bytes,
the sixteen words of a block are extended to a schedule of eighty, one for each round, and
what the rounds make of the state is added to it.  The length that the padding ends with is
taken modulo `2 ^ 64`; the standard hashes no text that is longer.

The schedule is a list that grows by one word from those before it.  What a program that
expands a block by other means has to show is `getD_schedule_of_lt` and
`getD_schedule_add`.
-/

namespace SecureHash

open BigEndian BlockHash

/-- A word. -/
abbrev Word := BitVec 32

/-- The working variables of a round, and the words of a hash value. -/
@[ext] structure Variables where
  a : Word
  b : Word
  c : Word
  d : Word
  e : Word
deriving DecidableEq, Repr

/-! ## The schedule -/

/-- The words of a block. -/
def words : List UInt8 → List Word
  | a :: b :: c :: d :: bs => .ofNat 32 (value [a, b, c, d]) :: words bs
  | _ => []

/-- The word that comes behind the others. -/
def next (ws : List Word) : Word :=
  (ws.getD (ws.length - 3) 0 ^^^ ws.getD (ws.length - 8) 0 ^^^ ws.getD (ws.length - 14) 0 ^^^
    ws.getD (ws.length - 16) 0).rotateLeft 1

/-- Words are extended by the next ones. -/
def extend : Nat → List Word → List Word
  | 0, ws => ws
  | k + 1, ws => extend k (ws ++ [next ws])

/-- The message schedule. -/
def schedule (block : List UInt8) : List Word := extend 64 (words block)

/-! ## The rounds -/

/-- The function of a round. -/
def f (t : Nat) (x y z : Word) : Word :=
  if t < 20 then x &&& y ^^^ ~~~x &&& z
  else if t < 40 then x ^^^ y ^^^ z
  else if t < 60 then x &&& y ^^^ x &&& z ^^^ y &&& z
  else x ^^^ y ^^^ z

/-- The constant of a round. -/
def K (t : Nat) : Word :=
  if t < 20 then 0x5a827999
  else if t < 40 then 0x6ed9eba1
  else if t < 60 then 0x8f1bbcdc
  else 0xca62c1d6

/-- One round. -/
def round (t : Nat) (w : Word) (v : Variables) : Variables :=
  ⟨v.a.rotateLeft 5 + f t v.b v.c v.d + v.e + K t + w, v.a, v.b.rotateLeft 30, v.c, v.d⟩

/-- The first rounds. -/
def rounds (ws : List Word) (v : Variables) : Nat → Variables
  | 0 => v
  | t + 1 => round t (ws.getD t 0) (rounds ws v t)

/-- The hash value after one more block. -/
def compress (h : Variables) (block : List UInt8) : Variables :=
  let v := rounds (schedule block) h 80
  ⟨v.a + h.a, v.b + h.b, v.c + h.c, v.d + h.d, v.e + h.e⟩

/-! ## Hashing -/

/-- The initial hash value. -/
def initial : Variables := ⟨0x67452301, 0xefcdab89, 0x98badcfe, 0x10325476, 0xc3d2e1f0⟩

/-- The number of zeros in the padding of a text of `n` bytes. -/
def zeros (n : Nat) : Nat := (119 - n % 64) % 64

/-- The padding of a text of `n` bytes. -/
def padding (n : Nat) : List UInt8 := 0x80 :: (List.replicate (zeros n) 0 ++ bytes 8 (8 * n))

/-- The bytes of a hash value. -/
def digest (h : Variables) : List UInt8 :=
  [h.a, h.b, h.c, h.d, h.e].flatMap fun w ↦ bytes 4 w.toNat

/-- SHA-1. -/
def sha1 (text : List UInt8) : List UInt8 :=
  digest (absorbed compress 64 initial (text ++ padding text.length))

/-! ## The words of a schedule -/

theorem length_words {n : Nat} {bs : List UInt8} (h : bs.length = 4 * n) :
    (words bs).length = n := by
  induction n generalizing bs with
  | zero =>
      cases List.length_eq_zero_iff.mp h
      rfl
  | succ n ih =>
      match bs, h with
      | a :: b :: c :: d :: bs, h =>
          have hbs : bs.length = 4 * n := by
            simp only [List.length_cons] at h
            omega
          exact congrArg Nat.succ (ih hbs)

theorem extend_succ (k : Nat) (ws : List Word) :
    extend (k + 1) ws = extend k ws ++ [next (extend k ws)] := by
  induction k generalizing ws with
  | zero => rfl
  | succ k ih =>
      rw [extend, ih]
      rfl

theorem length_extend (k : Nat) (ws : List Word) : (extend k ws).length = ws.length + k := by
  induction k with
  | zero => rfl
  | succ k ih => rw [extend_succ, List.length_append, ih, List.length_singleton, Nat.add_assoc]

/-- Words that are there stay. -/
theorem getD_extend (ws : List Word) {i k l : Nat} (hi : i < ws.length + k) (hl : k ≤ l) :
    (extend l ws).getD i 0 = (extend k ws).getD i 0 := by
  induction l, hl using Nat.le_induction with
  | base => rfl
  | succ l hl ih =>
      have hlt : i < (extend l ws).length := by
        rw [length_extend]
        omega
      rw [extend_succ, List.getD_append _ _ _ _ hlt, ih]

variable {block : List UInt8}

theorem getD_schedule_of_lt (h : block.length = 64) {t : Nat} (ht : t < 16) :
    (schedule block).getD t 0 = (words block).getD t 0 := by
  refine getD_extend (k := 0) (words block) ?_ (Nat.zero_le _)
  rw [length_words (n := 16) h]
  exact ht

/-- The recurrence of the schedule. -/
theorem getD_schedule_add (h : block.length = 64) {t : Nat} (ht : t < 64) :
    (schedule block).getD (t + 16) 0 =
      ((schedule block).getD (t + 13) 0 ^^^ (schedule block).getD (t + 8) 0 ^^^
        (schedule block).getD (t + 2) 0 ^^^ (schedule block).getD t 0).rotateLeft 1 := by
  have hwords : (words block).length = 16 := length_words (n := 16) h
  have hlen : (extend t (words block)).length = t + 16 := by
    rw [length_extend, hwords, Nat.add_comm]
  have hold : ∀ i, i < t + 16 →
      (schedule block).getD i 0 = (extend t (words block)).getD i 0 := by
    intro i hi
    exact getD_extend _ (by omega) (Nat.le_of_lt ht)
  have hnew : (schedule block).getD (t + 16) 0 = next (extend t (words block)) := by
    rw [schedule, getD_extend (k := t + 1) _ (by omega) ht, extend_succ,
      List.getD_append_right _ _ _ _ (Nat.le_of_eq hlen), hlen, Nat.sub_self]
    rfl
  rw [hnew, next, hlen, hold _ (by omega), hold _ (by omega), hold _ (by omega), hold _ (by omega)]
  rfl

end SecureHash
