import Mathlib.Data.List.Induction
import Mathlib.Data.Nat.Basic

/-!
# Blocks of memory

A block is a list of bytes that is written in place and read in ranges:
`overwrite` is `memcpy` into a block and `slice` a range of it.  The three facts
that matter are that a write keeps the length, that a range below the write is
untouched, and that a range ending where the write begins is extended by it.
-/

namespace Block

variable {α : Type*}

/-- The `n` elements from position `i` on. -/
def slice (l : List α) (i n : Nat) : List α := (l.drop i).take n

/-- Write `xs` over the elements from position `i` on. -/
def overwrite (l : List α) (i : Nat) (xs : List α) : List α :=
  l.take i ++ xs ++ l.drop (i + xs.length)

theorem length_slice {l : List α} {i n : Nat} (h : i + n ≤ l.length) :
    (slice l i n).length = n := by
  rw [slice, List.length_take, List.length_drop]
  omega

/-- Adjacent ranges concatenate. -/
theorem slice_append {l : List α} {i m n : Nat} :
    slice l i m ++ slice l (i + m) n = slice l i (m + n) := by
  rw [slice, slice, slice, ← List.drop_drop, ← List.take_add]

/-- A range depends only on the elements before its end. -/
theorem slice_eq_of_take_eq {l l' : List α} {i n m : Nat} (h : l.take m = l'.take m)
    (hm : i + n ≤ m) : slice l i n = slice l' i n := by
  have key : ∀ k : List α, slice k i n = slice (k.take m) i n := by
    intro k
    rw [slice, slice, List.drop_take, List.take_take]
    congr 1
    omega
  rw [key l, h, ← key l']

/-- Writing behind a front part leaves the front part alone. -/
theorem overwrite_append {l l' xs : List α} {i : Nat} (h : l.length ≤ i) :
    overwrite (l ++ l') i xs = l ++ overwrite l' (i - l.length) xs := by
  have hdrop : i + xs.length - l.length = i - l.length + xs.length := by omega
  rw [overwrite, List.take_append, List.drop_append, List.take_of_length_le h,
    List.drop_of_length_le (Nat.le_add_right_of_le h), hdrop, overwrite]
  simp only [List.append_assoc, List.nil_append]

theorem length_overwrite {l xs : List α} {i : Nat} (h : i + xs.length ≤ l.length) :
    (overwrite l i xs).length = l.length := by
  simp only [overwrite, List.length_append, List.length_take, List.length_drop]
  omega

/-- A write leaves everything before it alone. -/
theorem take_overwrite {l xs : List α} {i m : Nat} (hm : m ≤ i) (h : i ≤ l.length) :
    (overwrite l i xs).take m = l.take m := by
  have hlen : m ≤ (l.take i).length := by
    rw [List.length_take]
    omega
  rw [overwrite, List.append_assoc, List.take_append_of_le_length hlen, List.take_take]
  congr 1
  omega

/-- What was written is what is read there. -/
theorem slice_overwrite_self {l xs : List α} {i : Nat} (h : i ≤ l.length) :
    slice (overwrite l i xs) i xs.length = xs := by
  have hlen : (l.take i).length = i := by
    rw [List.length_take]
    omega
  rw [slice, overwrite, List.append_assoc, List.drop_append_of_le_length (by omega),
    List.drop_eq_nil_of_le (by omega)]
  simp

/-- Writing what is there changes nothing. -/
theorem overwrite_slice {l : List α} {i n : Nat} (h : i + n ≤ l.length) :
    overwrite l i (slice l i n) = l := by
  rw [overwrite, length_slice h, slice, List.append_assoc, ← List.drop_drop, List.take_append_drop,
    List.take_append_drop]

/-- A write that begins where another has ended extends it. -/
theorem overwrite_overwrite {l xs ys : List α} {i : Nat} (h : i ≤ l.length) :
    overwrite (overwrite l i xs) (i + xs.length) ys = overwrite l i (xs ++ ys) := by
  have hlen : (l.take i ++ xs).length = i + xs.length := by
    rw [List.length_append, List.length_take_of_le h]
  have hdrop : (l.take i ++ xs ++ l.drop (i + xs.length)).drop (i + xs.length + ys.length) =
      l.drop (i + (xs.length + ys.length)) := by
    rw [← List.drop_drop, List.drop_left' hlen, List.drop_drop, Nat.add_assoc]
  rw [overwrite, overwrite, overwrite, List.take_left' hlen, hdrop, List.length_append]
  simp only [List.append_assoc]

theorem getElem?_slice {l : List α} {i n m : Nat} (h : m < n) :
    (slice l i n)[m]? = l[i + m]? := by
  rw [slice, List.getElem?_take_of_lt h, List.getElem?_drop]

/-- A range is filled with `a` if and only if each of its elements is `a`. -/
theorem slice_eq_replicate_iff {l : List α} {i n : Nat} {a : α} (h : i + n ≤ l.length) :
    slice l i n = List.replicate n a ↔ ∀ m, m < n → l[i + m]? = some a := by
  constructor
  · intro hslice m hm
    rw [← getElem?_slice hm, hslice, List.getElem?_replicate, if_pos hm]
  · intro hall
    rw [List.eq_replicate_iff]
    refine ⟨length_slice h, fun x hx ↦ ?_⟩
    obtain ⟨m, hlen, rfl⟩ := List.getElem_of_mem hx
    have hm : m < n := by rwa [length_slice h] at hlen
    have hget := hall m hm
    rw [← getElem?_slice hm, List.getElem?_eq_getElem hlen] at hget
    exact Option.some.inj hget

end Block
