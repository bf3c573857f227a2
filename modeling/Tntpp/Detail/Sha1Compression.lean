import Tntpp.Base.SecureHash
import Tntpp.Detail.Sha1Memory

/-!
# One block of SHA-1

`SHA1Transform` computes the compression function of the standard.  It reads the words of a
block as the machine stores them and swaps their bytes, keeps sixteen words of the schedule
and writes each new one over the one it no longer needs, renames the variables of a round in
place of moving them, and writes the functions of the rounds with fewer operations.
-/

namespace Tntpp

open BigEndian Block

namespace Sha1

/-- The state in the terms of the standard. -/
def State.variables (s : State) : SecureHash.Variables := ⟨s.a, s.b, s.c, s.d, s.e⟩

/-! ## Words -/

theorem toNat_byte_append {w : Nat} (a : UInt8) (x : BitVec w) :
    (a.toBitVec ++ x).toNat = a.toNat * 2 ^ w + x.toNat := by
  rw [BitVec.toNat_append, ← Nat.shiftLeft_add_eq_or_of_lt x.isLt, Nat.shiftLeft_eq]
  rfl

/-- The word with the given bytes, one behind the other. -/
def ofBytes (a b c d : BitVec 8) : Word := a ++ (b ++ (c ++ d))

theorem ofNat_value (a b c d : UInt8) :
    BitVec.ofNat 32 (value [a, b, c, d]) =
      ofBytes a.toBitVec b.toBitVec c.toBitVec d.toBitVec := by
  have hvalue : value [a, b, c, d] =
      ((a.toNat * 256 + b.toNat) * 256 + c.toNat) * 256 + d.toNat := by
    simp [value]
  have hpow : 256 ^ 4 = 2 ^ 32 := by decide
  have hlt : value [a, b, c, d] < 256 ^ 4 := value_lt [a, b, c, d]
  have hd : d.toBitVec.toNat = d.toNat := rfl
  apply BitVec.eq_of_toNat_eq
  rw [BitVec.toNat_ofNat, Nat.mod_eq_of_lt (hpow ▸ hlt), ofBytes, toNat_byte_append,
    toNat_byte_append, toNat_byte_append, hd, hvalue]
  omega

theorem getLsbD_ofBytes (a b c d : BitVec 8) (i : Nat) :
    (ofBytes a b c d).getLsbD i =
      if i < 24 then
        if i < 16 then if i < 8 then d.getLsbD i else c.getLsbD (i - 8) else b.getLsbD (i - 16)
      else a.getLsbD (i - 24) := by
  have hcd : (c ++ d).getLsbD i = if i < 8 then d.getLsbD i else c.getLsbD (i - 8) :=
    BitVec.getLsbD_append
  have hbcd : (b ++ (c ++ d)).getLsbD i =
      if i < 16 then (c ++ d).getLsbD i else b.getLsbD (i - 16) :=
    BitVec.getLsbD_append
  rw [← hcd, ← hbcd]
  exact BitVec.getLsbD_append

/-- Swapping the bytes of a word turns their order around. -/
theorem swap_ofBytes (a b c d : BitVec 8) : swap (ofBytes d c b a) = ofBytes a b c d := by
  rw [swap_eq]
  apply BitVec.eq_of_getLsbD_eq
  intro i hi
  rw [BitVec.getLsbD_or, BitVec.getLsbD_and, BitVec.getLsbD_and, BitVec.getLsbD_not,
    BitVec.getLsbD_rotateLeft, BitVec.getLsbD_rotateLeft]
  interval_cases i <;> simp [-BitVec.getLsbD_eq_getElem, getLsbD_ofBytes]

theorem swap_ofNat_value (a b c d : UInt8) :
    swap (.ofNat 32 (value [d, c, b, a])) = .ofNat 32 (value [a, b, c, d]) := by
  rw [ofNat_value, ofNat_value, swap_ofBytes]

/-- The words of a block, with their bytes swapped, are those of the standard. -/
theorem map_swap_words (bs : List UInt8) : (words bs).map swap = SecureHash.words bs := by
  induction bs using words.induct with
  | case1 a b c d bs ih =>
      rw [words, SecureHash.words, List.map_cons, ih, swap_ofNat_value]
  | case2 bs hbs =>
      rw [words, SecureHash.words]
      · rfl
      · exact hbs
      · exact hbs

/-! ## The schedule -/

variable {buffer : List UInt8}

/-- The words that the rounds put into a block are the schedule of the block. -/
theorem scheduleOf_words (h : buffer.length = 64) {t : Nat} (ht : t < 80) :
    scheduleOf (words buffer) t = (SecureHash.schedule buffer).getD t 0 := by
  have hlength : (words buffer).length = 16 := (unwords_words (n := 16) h).2
  induction t using Nat.strongRecOn with
  | _ t ih =>
      rcases Nat.lt_or_ge t 16 with hlt | hge
      · have hzero : swap 0 = 0 := by decide
        rw [scheduleOf_of_lt hlength hlt, SecureHash.getD_schedule_of_lt h hlt,
          ← map_swap_words, ← hzero, List.getD_map, hzero]
      · obtain ⟨s, rfl⟩ := Nat.exists_eq_add_of_le' hge
        rw [isSchedule_scheduleOf hlength s, SecureHash.getD_schedule_add h (by omega),
          ih (s + 13) (by omega) (by omega), ih (s + 8) (by omega) (by omega),
          ih (s + 2) (by omega) (by omega), ih s (by omega) (by omega)]

/-! ## The rounds -/

/-- The functions of the rounds, written with fewer operations. -/
theorem mix_eq (i : Nat) (w x y : Word) :
    mix i w x y = SecureHash.f i w x y + SecureHash.K i := by
  have hchoose : (w &&& (x ^^^ y)) ^^^ y = w &&& x ^^^ ~~~w &&& y := by
    ext j hj
    simp only [BitVec.getElem_xor, BitVec.getElem_and, BitVec.getElem_not]
    cases w[j] <;> cases x[j] <;> cases y[j] <;> rfl
  have hmajority : ((w ||| x) &&& y) ||| (w &&& x) = w &&& x ^^^ w &&& y ^^^ x &&& y := by
    ext j hj
    simp only [BitVec.getElem_xor, BitVec.getElem_and, BitVec.getElem_or]
    cases w[j] <;> cases x[j] <;> cases y[j] <;> rfl
  rw [mix, SecureHash.f, SecureHash.K, hchoose, hmajority]
  split_ifs <;> rfl

theorem round_variables (i : Nat) (block : List Word) (s : State) :
    (round i block s).2.variables =
      SecureHash.round i ((expandAt block i).getD (i % 16) 0) s.variables := by
  have ha : s.e + mix i s.b s.c s.d + (expandAt block i).getD (i % 16) 0 + rol s.a 5 =
      s.a.rotateLeft 5 + SecureHash.f i s.b s.c s.d + s.e + SecureHash.K i +
        (expandAt block i).getD (i % 16) 0 := by
    rw [mix_eq, rol_eq_rotateLeft _ (by decide)]
    ac_rfl
  have hc : rol s.b 30 = s.b.rotateLeft 30 := rol_eq_rotateLeft _ (by decide)
  exact SecureHash.Variables.ext ha rfl hc rfl rfl

/-- After each round, the variables are those of the standard. -/
theorem rounds_variables (h : buffer.length = 64) (s : State) {n : Nat} (hn : n ≤ 80) :
    (rounds (words buffer) s n).2.variables =
      SecureHash.rounds (SecureHash.schedule buffer) s.variables n := by
  induction n with
  | zero => rfl
  | succ n ih =>
      have hword : (expandAt (rounds (words buffer) s n).1 n).getD (n % 16) 0 =
          (SecureHash.schedule buffer).getD n 0 := by
        rw [rounds_fst, ← scheduleOf_words h hn]
        rfl
      rw [SecureHash.rounds, ← ih (Nat.le_of_succ_le hn), ← hword]
      exact round_variables n _ _

/-- `SHA1Transform` is the compression function. -/
theorem sha1Transform_variables (h : buffer.length = 64) (s : State) :
    (sha1Transform s buffer).1.variables = SecureHash.compress s.variables buffer := by
  have hrounds := rounds_variables h s (Nat.le_refl 80)
  rw [SecureHash.compress, ← hrounds, sha1Transform]
  refine SecureHash.Variables.ext ?_ ?_ ?_ ?_ ?_
  all_goals exact BitVec.add_comm _ _

end Sha1

end Tntpp
