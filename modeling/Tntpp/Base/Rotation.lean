import Mathlib.Algebra.Group.Nat.Defs
import Mathlib.Logic.Function.Iterate
import Mathlib.Tactic.SplitIfs

/-!
# Words, rotations and the sequences they fix

Exclusive or makes words, and sequences of words, a group in which everything is its own
inverse.  A homomorphism `T` of such a group with `T^[2 ^ k] = id` fixes an element other
than zero, if there is any: `x` and `T x` either agree, or their difference is fixed when
`T` is an involution, and the general case is `k` of these.  `exists_fixed` finds this
element inside a set that is closed under differences and `T`.

Rotations are such homomorphisms, and so is the shift of a periodic sequence.
-/

namespace Rotation

open Function

/-- A homomorphism that is the identity after `2 ^ k` steps fixes something other than
zero. -/
theorem exists_fixed {α : Type*} {op : α → α → α} {zero : α}
    (hzero : ∀ x y, op x y = zero ↔ x = y) (hcomm : ∀ x y, op x y = op y x) {P : α → Prop}
    (hop : ∀ x y, P x → P y → P (op x y)) (k : ℕ) {T : α → α}
    (hT : ∀ x y, T (op x y) = op (T x) (T y)) (hP : ∀ x, P x → P (T x))
    (hk : ∀ x, P x → T^[2 ^ k] x = x) {x : α} (hx : P x) (hne : x ≠ zero) :
    ∃ y, P y ∧ y ≠ zero ∧ T y = y := by
  induction k generalizing T with
  | zero => exact ⟨x, hx, hne, hk x hx⟩
  | succ k ih =>
      -- half as many steps of `T^[2]`
      obtain ⟨y, hy, hyne, hfix⟩ : ∃ y, P y ∧ y ≠ zero ∧ T^[2] y = y := by
        refine ih ?_ ?_ ?_
        · intro x y
          change T (T (op x y)) = op (T (T x)) (T (T y))
          rw [hT, hT]
        · intro x hx
          exact hP _ (hP x hx)
        · intro x hx
          rw [← iterate_mul, ← Nat.pow_succ']
          exact hk x hx
      by_cases hTy : T y = y
      · exact ⟨y, hy, hyne, hTy⟩
      · refine ⟨op y (T y), hop _ _ hy (hP y hy), ?_, ?_⟩
        · rw [ne_eq, hzero]
          exact fun h ↦ hTy h.symm
        · rw [hT]
          change op (T y) (T^[2] y) = _
          rw [hfix, hcomm]

/-! ## Rotations -/

section

variable {w : ℕ} (x y : BitVec w) (n : ℕ)

theorem rotateLeft_xor :
    (x ^^^ y).rotateLeft n = x.rotateLeft n ^^^ y.rotateLeft n := by
  ext i hi
  simp only [BitVec.getElem_rotateLeft, BitVec.getElem_xor]
  split <;> rfl

theorem rotateLeft_and :
    (x &&& y).rotateLeft n = x.rotateLeft n &&& y.rotateLeft n := by
  ext i hi
  simp only [BitVec.getElem_rotateLeft, BitVec.getElem_and]
  split <;> rfl

theorem rotateLeft_or :
    (x ||| y).rotateLeft n = x.rotateLeft n ||| y.rotateLeft n := by
  ext i hi
  simp only [BitVec.getElem_rotateLeft, BitVec.getElem_or]
  split <;> rfl

@[simp] theorem zero_rotateLeft : (0#w).rotateLeft n = 0#w := by
  ext i hi
  simp [BitVec.getElem_rotateLeft]

@[simp] theorem rotateLeft_zero : x.rotateLeft 0 = x := by
  ext i hi
  simp [BitVec.getElem_rotateLeft]

/-- One rotation after another is their sum, taken modulo the width. -/
theorem rotateLeft_rotateLeft {m n : ℕ} (hm : m < w) (hn : n < w) :
    (x.rotateLeft m).rotateLeft n = x.rotateLeft (m + n) := by
  have hsum : (m + n) % w = if m + n < w then m + n else m + n - w := by
    split
    · next h => exact Nat.mod_eq_of_lt h
    · next h =>
        rw [Nat.mod_eq_sub_mod (Nat.le_of_not_lt h), Nat.mod_eq_of_lt]
        omega
  ext i hi
  simp only [BitVec.getElem_rotateLeft, Nat.mod_eq_of_lt hm, Nat.mod_eq_of_lt hn, hsum]
  split_ifs <;> congr 1 <;> omega

theorem rotateLeft_comm {m n : ℕ} (hm : m < w) (hn : n < w) :
    (x.rotateLeft m).rotateLeft n = (x.rotateLeft n).rotateLeft m := by
  rw [rotateLeft_rotateLeft x hm hn, rotateLeft_rotateLeft x hn hm, Nat.add_comm]

theorem rotateLeft_self : x.rotateLeft w = x := by
  rw [← BitVec.rotateLeft_mod_eq_rotateLeft, Nat.mod_self, rotateLeft_zero]

theorem rotateLeft_one_iterate {n : ℕ} (hn : n < w) :
    (fun x : BitVec w ↦ x.rotateLeft 1)^[n] x = x.rotateLeft n := by
  induction n with
  | zero => rw [iterate_zero_apply, rotateLeft_zero]
  | succ n ih =>
      rw [iterate_succ_apply', ih (Nat.lt_of_succ_lt hn)]
      exact rotateLeft_rotateLeft x (Nat.lt_of_succ_lt hn) (Nat.lt_of_le_of_lt (Nat.le_add_left 1 n) hn)

end

end Rotation
