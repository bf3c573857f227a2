import Mathlib.Algebra.Group.Nat.Defs
import Mathlib.Data.List.Induction

/-!
# Big-endian numerals over bytes

Network formats write an unsigned integer as a fixed number of bytes, most
significant first.  `bytes w n` is that numeral for the low `w` bytes of `n` and
`value bs` is the number a byte string spells; they are inverse to each other as
soon as the number fits the width.

`splitAt?` is the other thing every reader of such a format does: take exactly
`n` bytes off the front, or notice that they are not there.
-/

namespace BigEndian

/-- The low `w` bytes of `n`, most significant first. -/
def bytes : Nat → Nat → List UInt8
  | 0, _ => []
  | w + 1, n => bytes w (n / 256) ++ [UInt8.ofNat n]

/-- The number a byte string spells, read most significant byte first. -/
def value (bs : List UInt8) : Nat :=
  bs.foldl (fun acc b ↦ acc * 256 + b.toNat) 0

@[simp] theorem bytes_zero (n : Nat) : bytes 0 n = [] := rfl

theorem bytes_succ (w n : Nat) : bytes (w + 1) n = bytes w (n / 256) ++ [UInt8.ofNat n] := rfl

@[simp] theorem value_nil : value [] = 0 := rfl

/-- The last byte of a numeral is its units digit. -/
theorem value_concat (bs : List UInt8) (b : UInt8) :
    value (bs ++ [b]) = value bs * 256 + b.toNat := by
  simp [value, List.foldl_append]

@[simp] theorem value_singleton (b : UInt8) : value [b] = b.toNat := by
  simpa using value_concat [] b

@[simp] theorem length_bytes (w n : Nat) : (bytes w n).length = w := by
  induction w generalizing n with
  | zero => rfl
  | succ w ih => simp [bytes_succ, ih]

/-- Reading a numeral back gives the number reduced to the width. -/
theorem value_bytes_mod (w n : Nat) : value (bytes w n) = n % 256 ^ w := by
  induction w generalizing n with
  | zero => simp [Nat.mod_one]
  | succ w ih =>
      have hb : (UInt8.ofNat n).toNat = n % 256 := UInt8.toNat_ofNat'
      rw [bytes_succ, value_concat, ih, hb, Nat.pow_succ', Nat.mod_mul]
      omega

/-- A number that fits the width is read back unchanged. -/
theorem value_bytes {w n : Nat} (h : n < 256 ^ w) : value (bytes w n) = n := by
  rw [value_bytes_mod, Nat.mod_eq_of_lt h]

/-- Every byte string is the numeral of the number it spells. -/
theorem bytes_value (bs : List UInt8) : bytes bs.length (value bs) = bs := by
  induction bs using List.reverseRecOn with
  | nil => rfl
  | append_singleton bs b ih =>
      have hb : b.toNat < 256 := b.toNat_lt
      have hdiv : (value bs * 256 + b.toNat) / 256 = value bs := by omega
      rw [value_concat, List.length_append, List.length_singleton, bytes_succ, hdiv, ih]
      congr 2
      apply UInt8.toNat_inj.mp
      rw [UInt8.toNat_ofNat']
      omega

/-- A byte string spells a number that fits its width. -/
theorem value_lt (bs : List UInt8) : value bs < 256 ^ bs.length := by
  have h := value_bytes_mod bs.length (value bs)
  rw [bytes_value] at h
  rw [h]
  exact Nat.mod_lt _ (Nat.pow_pos (by decide))

/-- Enough bytes start with some numeral of a given width. -/
theorem exists_bytes {w : Nat} {bs : List UInt8} (h : w ≤ bs.length) :
    ∃ n rest, n < 256 ^ w ∧ bs = bytes w n ++ rest := by
  have hlen : (bs.take w).length = w := List.length_take_of_le h
  have hlt := value_lt (bs.take w)
  have hbytes := bytes_value (bs.take w)
  rw [hlen] at hlt hbytes
  exact ⟨value (bs.take w), bs.drop w, hlt, by rw [hbytes, List.take_append_drop]⟩

/-- A numeral shows its number reduced to the width. -/
theorem bytes_mod (w n : Nat) : bytes w (n % 256 ^ w) = bytes w n := by
  have h := bytes_value (bytes w n)
  rwa [length_bytes, value_bytes_mod] at h

/-- Take exactly `n` bytes off the front of a byte string. -/
def splitAt? (n : Nat) (bs : List UInt8) : Option (List UInt8 × List UInt8) :=
  if n ≤ bs.length then some (bs.take n, bs.drop n) else none

theorem splitAt?_append {n : Nat} {bs : List UInt8} (h : bs.length = n) (rest : List UInt8) :
    splitAt? n (bs ++ rest) = some (bs, rest) := by
  subst h
  simp [splitAt?]

@[simp] theorem splitAt?_bytes (w n : Nat) (rest : List UInt8) :
    splitAt? w (bytes w n ++ rest) = some (bytes w n, rest) :=
  splitAt?_append (length_bytes w n) rest

end BigEndian
