import Mathlib.Tactic.IntervalCases
import Tntpp.Base.Rotation
import Tntpp.Detail.Sha1

/-!
# Blocks that are expanded in place

What `SHA1Transform` leaves in the memory of a block is the end of the message schedule:
sixteen words of an infinite sequence, of which the first sixteen are those of the block
with their bytes swapped.  A block that is not changed is therefore a schedule that comes
back to its beginning after 64 words, up to the order of bytes.

Only the schedule of zeros does (`IsSchedule.eq_zero`).  The schedules that do are closed
under rotations by 16 bits, and if there is one other than zero then there is one these
rotations fix; it does not see the difference between swapping bytes and rotating by 8.
Among such schedules one is fixed by all rotations, and does not see the order of bytes at
all, so it has period 64; among these one is fixed by the shift, and constant.  No constant
but zero is the rotation of the sum of four times itself.
-/

namespace Tntpp

namespace Sha1

open Rotation

/-! ## Swapping the bytes of a word -/

theorem rol_eq_rotateLeft (x : Word) {n : Nat} (hn : n < 32) : rol x n = x.rotateLeft n := by
  rw [BitVec.rotateLeft_def, Nat.mod_eq_of_lt hn, rol]

theorem swap_eq (x : Word) :
    swap x = x.rotateLeft 24 &&& 0xff00ff00 ||| x.rotateLeft 8 &&& ~~~0xff00ff00 := by
  rw [swap, rol_eq_rotateLeft x (by decide), rol_eq_rotateLeft x (by decide)]
  rfl

/-- A choice of bits by a mask is additive. -/
theorem mask_xor (a b a' b' m : Word) :
    (a ^^^ a') &&& m ||| (b ^^^ b') &&& ~~~m =
      (a &&& m ||| b &&& ~~~m) ^^^ (a' &&& m ||| b' &&& ~~~m) := by
  ext i hi
  simp only [BitVec.getElem_or, BitVec.getElem_and, BitVec.getElem_xor, BitVec.getElem_not]
  cases m[i] <;> simp

theorem mask_self (a m : Word) : a &&& m ||| a &&& ~~~m = a := by
  ext i hi
  simp only [BitVec.getElem_or, BitVec.getElem_and, BitVec.getElem_not]
  cases m[i] <;> simp

theorem swap_xor (x y : Word) : swap (x ^^^ y) = swap x ^^^ swap y := by
  rw [swap_eq, swap_eq, swap_eq, rotateLeft_xor, rotateLeft_xor, mask_xor]

/-- The halves of a word are swapped before or after its bytes. -/
theorem swap_rotateLeft (x : Word) : swap (x.rotateLeft 16) = (swap x).rotateLeft 16 := by
  have hmask : (0xff00ff00 : Word).rotateLeft 16 = 0xff00ff00 := by decide
  have hmask' : (~~~0xff00ff00 : Word).rotateLeft 16 = ~~~0xff00ff00 := by decide
  rw [swap_eq, swap_eq, rotateLeft_or, rotateLeft_and, rotateLeft_and, hmask, hmask',
    rotateLeft_comm x (by decide) (by decide), rotateLeft_comm x (m := 16) (n := 8) (by decide) (by decide)]

/-- Where the halves are the same, swapping bytes is a rotation. -/
theorem swap_of_rotateLeft {x : Word} (h : x.rotateLeft 16 = x) : swap x = x.rotateLeft 8 := by
  have h24 : x.rotateLeft 24 = x.rotateLeft 8 := by
    have hsum := rotateLeft_rotateLeft x (m := 16) (n := 8) (by decide) (by decide)
    rw [h] at hsum
    exact hsum.symm
  rw [swap_eq, h24, mask_self]

/-! ## Schedules -/

/-- The recurrence of a message schedule. -/
def IsSchedule (W : Nat → Word) : Prop :=
  ∀ t, W (t + 16) = (W (t + 13) ^^^ W (t + 8) ^^^ W (t + 2) ^^^ W t).rotateLeft 1

/-- The sum of two sequences. -/
def xor (V W : Nat → Word) (t : Nat) : Word := V t ^^^ W t

theorem xor_eq_zero_iff (V W : Nat → Word) : xor V W = (fun _ ↦ 0) ↔ V = W := by
  constructor
  · intro h
    funext t
    exact BitVec.xor_eq_zero_iff.mp (congrFun h t)
  · rintro rfl
    funext t
    exact BitVec.xor_self

theorem xor_comm (V W : Nat → Word) : xor V W = xor W V := by
  funext t
  exact BitVec.xor_comm (V t) (W t)

namespace IsSchedule

variable {V W : Nat → Word}

/-- A schedule is determined by its first sixteen words. -/
theorem ext (hV : IsSchedule V) (hW : IsSchedule W) (h : ∀ j, j < 16 → V j = W j) (t : Nat) :
    V t = W t := by
  induction t using Nat.strongRecOn with
  | _ t ih =>
      rcases Nat.lt_or_ge t 16 with ht | ht
      · exact h t ht
      · obtain ⟨s, rfl⟩ := Nat.exists_eq_add_of_le' ht
        rw [hV s, hW s, ih (s + 13) (by omega), ih (s + 8) (by omega), ih (s + 2) (by omega),
          ih s (by omega)]

theorem xor (hV : IsSchedule V) (hW : IsSchedule W) : IsSchedule (xor V W) := by
  intro t
  change V (t + 16) ^^^ W (t + 16) = _
  rw [hV t, hW t, ← rotateLeft_xor]
  congr 1
  simp only [Sha1.xor]
  ac_rfl

theorem rotateLeft (hW : IsSchedule W) {n : Nat} (hn : n < 32) :
    IsSchedule fun t ↦ (W t).rotateLeft n := by
  intro t
  dsimp only
  rw [hW t, rotateLeft_comm _ (by decide) hn]
  simp only [rotateLeft_xor]

theorem shift (hW : IsSchedule W) (n : Nat) : IsSchedule fun t ↦ W (t + n) := by
  intro t
  have h := hW (t + n)
  simp only [Nat.add_right_comm t n] at h
  exact h

end IsSchedule

/-! ## Schedules that come back -/

/-- A schedule comes back to its first sixteen words after 64, up to `f`. -/
structure Returns (f : Word → Word) (W : Nat → Word) : Prop where
  /-- The recurrence. -/
  schedule : IsSchedule W
  /-- The words that come back. -/
  returns : ∀ j, j < 16 → f (W (j + 64)) = W j

namespace Returns

variable {f : Word → Word} {V W : Nat → Word}

theorem xor (hf : ∀ x y, f (x ^^^ y) = f x ^^^ f y) (hV : Returns f V) (hW : Returns f W) :
    Returns f (xor V W) where
  schedule := hV.schedule.xor hW.schedule
  returns j hj := (hf _ _).trans (congrArg₂ _ (hV.returns j hj) (hW.returns j hj))

theorem rotateLeft {n : Nat} (hn : n < 32)
    (hf : ∀ x : Word, f (x.rotateLeft n) = (f x).rotateLeft n) (hW : Returns f W) :
    Returns f fun t ↦ (W t).rotateLeft n where
  schedule := hW.schedule.rotateLeft hn
  returns j hj := (hf _).trans (congrArg (·.rotateLeft n) (hW.returns j hj))

/-- A schedule that comes back as it was has a period. -/
theorem periodic (hW : Returns id W) (t : Nat) : W (t + 64) = W t :=
  (hW.schedule.shift 64).ext hW.schedule hW.returns t

end Returns

theorem rotateLeft_iterate (n k : Nat) (W : Nat → Word) :
    (fun (W : Nat → Word) t ↦ (W t).rotateLeft n)^[k] W =
      fun t ↦ (fun x : Word ↦ x.rotateLeft n)^[k] (W t) := by
  induction k generalizing W with
  | zero => rfl
  | succ k ih => exact ih fun t ↦ (W t).rotateLeft n

theorem shift_iterate (k : Nat) (W : Nat → Word) :
    (fun (W : Nat → Word) t ↦ W (t + 1))^[k] W = fun t ↦ W (t + k) := by
  induction k generalizing W with
  | zero => rfl
  | succ k ih => exact ih fun t ↦ W (t + 1)

variable {W : Nat → Word}

/-- A schedule that comes back with its bytes swapped gives one whose words have two equal
halves. -/
theorem exists_returns_of_swap (hW : Returns swap W) (hne : W ≠ fun _ ↦ 0) :
    ∃ V, Returns (·.rotateLeft 8) V ∧ V ≠ (fun _ ↦ 0) ∧ ∀ t, (V t).rotateLeft 16 = V t := by
  obtain ⟨V, hV, hVne, hfix⟩ : ∃ V, Returns swap V ∧ V ≠ (fun _ ↦ 0) ∧
      (fun t ↦ (V t).rotateLeft 16) = V := by
    refine exists_fixed xor_eq_zero_iff xor_comm (fun _ _ ↦ Returns.xor swap_xor) 1 ?_ ?_ ?_ hW hne
    · intro V W
      funext t
      exact rotateLeft_xor (V t) (W t) 16
    · intro V hV
      exact hV.rotateLeft (by decide) swap_rotateLeft
    · intro V _
      funext t
      exact (rotateLeft_rotateLeft (V t) (by decide) (by decide)).trans (rotateLeft_self (V t))
  have hhalves := congrFun hfix
  refine ⟨V, ⟨hV.schedule, fun j hj ↦ ?_⟩, hVne, hhalves⟩
  exact (swap_of_rotateLeft (hhalves (j + 64))).symm.trans (hV.returns j hj)

/-- Such a schedule gives one that comes back as it was. -/
theorem exists_returns_of_halves (hW : Returns (·.rotateLeft 8) W)
    (hhalves : ∀ t, (W t).rotateLeft 16 = W t) (hne : W ≠ fun _ ↦ 0) :
    ∃ V, Returns id V ∧ V ≠ fun _ ↦ 0 := by
  obtain ⟨V, ⟨hV, -⟩, hVne, hfix⟩ : ∃ V, (Returns (·.rotateLeft 8) V ∧
      ∀ t, (V t).rotateLeft 16 = V t) ∧ V ≠ (fun _ ↦ 0) ∧ (fun t ↦ (V t).rotateLeft 1) = V := by
    refine exists_fixed xor_eq_zero_iff xor_comm ?_ 4 ?_ ?_ ?_ ⟨hW, hhalves⟩ hne
    · rintro V W ⟨hV, hV'⟩ ⟨hW, hW'⟩
      refine ⟨hV.xor (fun x y ↦ rotateLeft_xor x y 8) hW, fun t ↦ ?_⟩
      exact (rotateLeft_xor _ _ 16).trans (congrArg₂ _ (hV' t) (hW' t))
    · intro V W
      funext t
      exact rotateLeft_xor (V t) (W t) 1
    · rintro V ⟨hV, hV'⟩
      refine ⟨hV.rotateLeft (by decide) fun x ↦ rotateLeft_comm x (by decide) (by decide), ?_⟩
      intro t
      exact (rotateLeft_comm _ (by decide) (by decide)).trans (congrArg (·.rotateLeft 1) (hV' t))
    · rintro V ⟨-, hV'⟩
      rw [rotateLeft_iterate]
      funext t
      exact (rotateLeft_one_iterate (V t) (by decide)).trans (hV' t)
  refine ⟨V, ⟨hV.schedule, fun j hj ↦ ?_⟩, hVne⟩
  -- rotations by one bit fix the words, and so do those by eight
  have hrot : (V (j + 64)).rotateLeft 8 = V (j + 64) := by
    rw [← rotateLeft_one_iterate (V (j + 64)) (by decide : 8 < 32)]
    exact Function.iterate_fixed (congrFun hfix (j + 64)) 8
  exact hrot.symm.trans (hV.returns j hj)

/-- A schedule with a period of 64 gives one that is constant. -/
theorem exists_constant (hW : Returns id W) (hne : W ≠ fun _ ↦ 0) :
    ∃ V, IsSchedule V ∧ V ≠ (fun _ ↦ 0) ∧ ∀ t, V (t + 1) = V t := by
  obtain ⟨V, ⟨hV, -⟩, hVne, hfix⟩ : ∃ V, (IsSchedule V ∧ ∀ t, V (t + 64) = V t) ∧
      V ≠ (fun _ ↦ 0) ∧ (fun t ↦ V (t + 1)) = V := by
    refine exists_fixed xor_eq_zero_iff xor_comm ?_ 6 ?_ ?_ ?_ ⟨hW.schedule, hW.periodic⟩ hne
    · rintro V W ⟨hV, hV'⟩ ⟨hW, hW'⟩
      exact ⟨hV.xor hW, fun t ↦ congrArg₂ (· ^^^ ·) (hV' t) (hW' t)⟩
    · intro V W
      rfl
    · rintro V ⟨hV, hV'⟩
      exact ⟨hV.shift 1, fun t ↦ (congrArg V (Nat.add_right_comm t 64 1)).trans (hV' (t + 1))⟩
    · rintro V ⟨-, hV'⟩
      rw [shift_iterate]
      exact funext hV'
  exact ⟨V, hV, hVne, congrFun hfix⟩

/-- The only schedule that comes back with its bytes swapped is zero. -/
theorem Returns.eq_zero (hW : Returns swap W) : W = fun _ ↦ 0 := by
  by_contra hne
  obtain ⟨V₁, hV₁, hne₁, hhalves⟩ := exists_returns_of_swap hW hne
  obtain ⟨V₂, hV₂, hne₂⟩ := exists_returns_of_halves hV₁ hhalves hne₁
  obtain ⟨V, hV, hVne, hstep⟩ := exists_constant hV₂ hne₂
  have hconst : ∀ t, V t = V 0 := by
    intro t
    induction t with
    | zero => rfl
    | succ t ih => rw [hstep t, ih]
  -- four times a word is zero
  have hzero : V 0 = 0 := by
    have h := hV 0
    rw [hconst 16, hconst 13, hconst 8, hconst 2, BitVec.xor_self, BitVec.zero_xor, BitVec.xor_self,
      zero_rotateLeft] at h
    exact h
  exact hVne (funext fun t ↦ (hconst t).trans hzero)

/-! ## The words of a block -/

/-- A block after the first rounds. -/
def expanded (block : List Word) : Nat → List Word
  | 0 => block
  | i + 1 => expandAt (expanded block i) i

theorem rounds_fst (block : List Word) (s : State) (n : Nat) :
    (rounds block s n).1 = expanded block n := by
  induction n with
  | zero => rfl
  | succ n ih =>
      change expandAt (rounds block s n).1 n = expandAt (expanded block n) n
      rw [ih]

section

variable {block : List Word}

theorem getD_set_self {i : Nat} (h : i < block.length) (x : Word) :
    (block.set i x).getD i 0 = x := by
  rw [List.getD_eq_getElem?_getD, List.getElem?_set_self h, Option.getD_some]

theorem getD_set_ne {i j : Nat} (h : i ≠ j) (x : Word) :
    (block.set i x).getD j 0 = block.getD j 0 := by
  rw [List.getD_eq_getElem?_getD, List.getElem?_set_ne h, ← List.getD_eq_getElem?_getD]

/-- A round changes one word. -/
theorem getD_expandAt_ne {i j : Nat} (h : i % 16 ≠ j) :
    (expandAt block i).getD j 0 = block.getD j 0 := by
  rw [expandAt]
  split
  · next hi =>
      rw [Nat.mod_eq_of_lt hi] at h
      exact getD_set_ne h _
  · exact getD_set_ne h _

theorem length_expandAt (i : Nat) : (expandAt block i).length = block.length := by
  rw [expandAt]
  split
  · exact List.length_set
  · exact List.length_set

theorem length_expanded (n : Nat) : (expanded block n).length = block.length := by
  induction n with
  | zero => rfl
  | succ n ih => rw [expanded, length_expandAt, ih]

/-- The word a round puts into the block. -/
def scheduleOf (block : List Word) (t : Nat) : Word := (expanded block (t + 1)).getD (t % 16) 0

/-- It stays there for sixteen rounds. -/
theorem getD_expanded {t n : Nat} (hlt : t < n) (hle : n ≤ t + 16) :
    (expanded block n).getD (t % 16) 0 = scheduleOf block t := by
  induction n, hlt using Nat.le_induction with
  | base => rfl
  | succ n hlt ih =>
      have hne : n % 16 ≠ t % 16 := by omega
      rw [expanded, getD_expandAt_ne hne]
      exact ih (Nat.le_of_succ_le hle)

/-- The first rounds leave the words behind them alone. -/
theorem getD_expanded_of_le {j n : Nat} (hle : n ≤ j) (hj : j < 16) :
    (expanded block n).getD j 0 = block.getD j 0 := by
  induction n with
  | zero => rfl
  | succ n ih =>
      have hne : n % 16 ≠ j := by omega
      rw [expanded, getD_expandAt_ne hne]
      exact ih (Nat.le_of_succ_le hle)

/-- The first sixteen words are those of the block, with their bytes swapped. -/
theorem scheduleOf_of_lt (hblock : block.length = 16) {j : Nat} (hj : j < 16) :
    scheduleOf block j = swap (block.getD j 0) := by
  have hlen : j < (expanded block j).length := by rwa [length_expanded, hblock]
  rw [scheduleOf, expanded, expandAt, if_pos hj, blk0, Nat.mod_eq_of_lt hj, getD_set_self hlen,
    getD_expanded_of_le (Nat.le_refl j) hj]

theorem isSchedule_scheduleOf (hblock : block.length = 16) : IsSchedule (scheduleOf block) := by
  intro t
  have hlen : (t + 16) % 16 < (expanded block (t + 16)).length := by
    rw [length_expanded, hblock]
    exact Nat.mod_lt _ (by decide)
  have hi : ¬ t + 16 < 16 := by omega
  have h13 : (t + 16 + 13) % 16 = (t + 13) % 16 := by omega
  have h8 : (t + 16 + 8) % 16 = (t + 8) % 16 := by omega
  have h2 : (t + 16 + 2) % 16 = (t + 2) % 16 := by omega
  have h0 : (t + 16) % 16 = t % 16 := by omega
  conv_lhs => rw [scheduleOf, expanded, expandAt, if_neg hi, blk, getD_set_self hlen]
  rw [h13, h8, h2, h0, rol_eq_rotateLeft _ (by decide), getD_expanded (by omega) (by omega),
    getD_expanded (by omega) (by omega), getD_expanded (by omega) (by omega),
    getD_expanded (by omega) (by omega)]

theorem expanded_replicate (n : Nat) :
    expanded (List.replicate 16 0) n = List.replicate 16 0 := by
  induction n with
  | zero => rfl
  | succ n ih =>
      rw [expanded, ih]
      have hget : ∀ j, (List.replicate 16 (0 : Word)).getD j 0 = 0 := by
        intro j
        rw [List.getD_eq_getElem?_getD, List.getElem?_replicate]
        split <;> rfl
      rw [expandAt]
      split
      · rw [blk0, hget]
        exact List.set_replicate_self
      · rw [blk, hget, hget, hget, hget]
        exact List.set_replicate_self

/-- The words of a block are the same after all rounds if and only if they are zero. -/
theorem expanded_eq_iff (hblock : block.length = 16) :
    expanded block 80 = block ↔ block = List.replicate 16 0 := by
  constructor
  · intro h
    have hreturns : ∀ j, j < 16 → scheduleOf block (j + 64) = block.getD j 0 := by
      intro j hj
      have hmod : (j + 64) % 16 = j := by omega
      have hget : (expanded block 80).getD ((j + 64) % 16) 0 = scheduleOf block (j + 64) :=
        getD_expanded (by omega) (by omega)
      rw [← hget, h, hmod]
    have hzero : scheduleOf block = fun _ ↦ 0 := by
      refine Returns.eq_zero ⟨isSchedule_scheduleOf hblock, fun j hj ↦ ?_⟩
      rw [hreturns j hj, scheduleOf_of_lt hblock hj]
    rw [List.eq_replicate_iff]
    refine ⟨hblock, fun x hx ↦ ?_⟩
    obtain ⟨j, hj, rfl⟩ := List.getElem_of_mem hx
    have hword := hreturns j (hblock ▸ hj)
    rw [hzero, List.getD_eq_getElem?_getD, List.getElem?_eq_getElem hj, Option.getD_some] at hword
    exact hword.symm
  · rintro rfl
    exact expanded_replicate 80

end

end Sha1

end Tntpp
