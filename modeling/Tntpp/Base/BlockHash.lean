import Mathlib.Data.List.Induction
import Mathlib.Data.Nat.Basic

/-!
# Hashing a text block by block

An iterated hash function keeps a state, and changes it by one block of `n` elements of its
text after the other.  What it knows of a text it has read in part is the state after the
whole blocks, `absorbed`, and the elements behind them, `rest`; that this is enough to go on
is `absorbed_append` and `rest_append`, which is why a text can be passed in pieces.

A function that is given pieces fills up what is left of the last one, reads whole blocks
where they lie and keeps the remainder: `absorbed_of_lt` and `absorbed_fill` are its two
cases.
-/

namespace BlockHash

variable {σ α : Type*} (compress : σ → List α → σ) (n : Nat)

/-- The state after the first `k` blocks of a text. -/
def absorb : Nat → σ → List α → σ
  | 0, s, _ => s
  | k + 1, s, xs => absorb k (compress s (xs.take n)) (xs.drop n)

/-- The state after the whole blocks of a text. -/
def absorbed (s : σ) (xs : List α) : σ := absorb compress n (xs.length / n) s xs

/-- What is left of a text behind its whole blocks. -/
def rest (xs : List α) : List α := xs.drop (n * (xs.length / n))

variable {n} (s : σ) (xs ys : List α)

theorem length_rest : (rest n xs).length = xs.length % n := by
  rw [rest, List.length_drop]
  exact (Nat.mod_eq_sub_mul_div).symm

/-- First some blocks, then more. -/
theorem absorb_add (j k : Nat) :
    absorb compress n (j + k) s xs =
      absorb compress n k (absorb compress n j s xs) (xs.drop (n * j)) := by
  induction j generalizing s xs with
  | zero =>
      rw [Nat.zero_add, Nat.mul_zero, List.drop_zero]
      rfl
  | succ j ih =>
      have hindex : n + n * j = n * (j + 1) := by rw [Nat.mul_succ, Nat.add_comm]
      rw [Nat.succ_add, absorb, ih, List.drop_drop, hindex]
      rfl

/-- The blocks of a text do not depend on what comes behind them. -/
theorem absorb_append {k : Nat} (h : n * k ≤ xs.length) :
    absorb compress n k s (xs ++ ys) = absorb compress n k s xs := by
  induction k generalizing s xs with
  | zero => rfl
  | succ k ih =>
      rw [Nat.mul_succ] at h
      have hn : n ≤ xs.length := Nat.le_trans (Nat.le_add_left n (n * k)) h
      have hk : n * k ≤ (xs.drop n).length := by
        rw [List.length_drop]
        exact Nat.le_sub_of_add_le h
      rw [absorb, absorb, List.take_append_of_le_length hn, List.drop_append_of_le_length hn,
        ih _ _ hk]

/-- The whole blocks of a text that goes on are its own and those of what is left with what
comes behind. -/
theorem length_append_div (hn : 0 < n) :
    (xs ++ ys).length / n = xs.length / n + (rest n xs ++ ys).length / n := by
  have hlen : (xs ++ ys).length = (rest n xs ++ ys).length + n * (xs.length / n) := by
    have h := Nat.mod_add_div xs.length n
    rw [List.length_append, List.length_append, length_rest]
    omega
  rw [hlen, Nat.add_mul_div_left _ _ hn, Nat.add_comm]

theorem drop_append_eq : (xs ++ ys).drop (n * (xs.length / n)) = rest n xs ++ ys :=
  List.drop_append_of_le_length (Nat.mul_div_le _ _)

/-- Reading can go on from the state and what is left. -/
theorem absorbed_append (hn : 0 < n) :
    absorbed compress n s (xs ++ ys) =
      absorbed compress n (absorbed compress n s xs) (rest n xs ++ ys) := by
  rw [absorbed, length_append_div xs ys hn, absorb_add, drop_append_eq,
    absorb_append compress s xs ys (Nat.mul_div_le _ _)]
  rfl

theorem rest_append (hn : 0 < n) : rest n (xs ++ ys) = rest n (rest n xs ++ ys) := by
  rw [rest, length_append_div xs ys hn, Nat.mul_add, ← List.drop_drop, drop_append_eq]
  rfl

variable {xs} in
/-- Too little for a block is kept. -/
theorem absorbed_of_lt (h : xs.length < n) : absorbed compress n s xs = s ∧ rest n xs = xs := by
  rw [absorbed, rest, Nat.div_eq_of_lt h]
  exact ⟨rfl, rfl⟩

variable {xs} in
/-- What fills a block is read at once, and the whole blocks behind it where they lie. -/
theorem absorbed_fill (h : xs.length = n) (hn : 0 < n) :
    absorbed compress n s (xs ++ ys) =
        absorb compress n (ys.length / n) (compress s xs) ys ∧
      rest n (xs ++ ys) = ys.drop (n * (ys.length / n)) := by
  have hlen : (xs ++ ys).length / n = 1 + ys.length / n := by
    rw [List.length_append, h, Nat.add_div_left _ hn, Nat.add_comm]
  have htake : (xs ++ ys).take n = xs := List.take_left' h
  have hdrop : (xs ++ ys).drop n = ys := List.drop_left' h
  constructor
  · rw [absorbed, hlen, Nat.add_comm, absorb, htake, hdrop]
  · rw [rest, hlen, Nat.mul_add, Nat.mul_one, ← List.drop_drop, hdrop]

end BlockHash
