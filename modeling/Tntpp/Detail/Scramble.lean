import Mathlib.Data.List.TakeWhile
import Tntpp.Detail.Salt
import Tntpp.Detail.Sha1Stream

/-!
# Verification of a scramble

A server that knows `SHA1(SHA1(password))` and the salt it has sent checks a scramble by
undoing the exclusive or.  The scramble of `ScramblePassword` passes this check for every
password and for every salt in base64: `encode64` is the encoding with padding, stated
apart from the decoder, and it is recovered whole for each amount of padding.

The check is stated twice, with the hash of the client (`Verifies`) and with the hash of the
standard (`Accepts`); the second is about passwords whose length is passed unchanged.
-/

namespace Tntpp

open BigEndian Block Sha1

/-! ## Base64 -/

/-- The character of a base64 digit. -/
def digitChar (n : Nat) : UInt8 :=
  if n < 26 then .ofNat (n + 0x41)
  else if n < 52 then .ofNat (n - 26 + 0x61)
  else if n < 62 then .ofNat (n - 52 + 0x30)
  else if n = 62 then 0x2b
  else 0x2f

/-- The four digits of a number of 24 bits. -/
def digits (n : Nat) : List UInt8 :=
  [digitChar (n / 2 ^ 18), digitChar (n / 2 ^ 12 % 64), digitChar (n / 2 ^ 6 % 64),
    digitChar (n % 64)]

/-- Base64 with padding. -/
def encode64 : List UInt8 → List UInt8
  | [] => []
  | [a] => (digits (value [a, 0, 0])).take 2 ++ [0x3d, 0x3d]
  | [a, b] => (digits (value [a, b, 0])).take 3 ++ [0x3d]
  | a :: b :: c :: bs => digits (value [a, b, c]) ++ encode64 bs

/-- A digit is no padding and no space, and has its value. -/
theorem digitChar_spec {n : Nat} (h : n < 64) :
    digitValue (digitChar n) = some n ∧ digitChar n ≠ 0x3d ∧ isSpace (digitChar n) = false := by
  revert n
  decide

theorem value_lt_group (a b c : UInt8) : value [a, b, c] < 2 ^ 24 := by
  have hpow : 256 ^ 3 = 2 ^ 24 := by decide
  have hlt : value [a, b, c] < 256 ^ 3 := value_lt [a, b, c]
  exact hpow ▸ hlt

/-- Four digits are decoded to the bytes of the number. -/
theorem decodeGroups_digits {n : Nat} (h : n < 2 ^ 24) (s : List UInt8) :
    decodeGroups (digits n ++ s) = (decodeGroups s).map (bytes 3 n ++ ·) := by
  have hn : n / 2 ^ 18 * 2 ^ 18 + n / 2 ^ 12 % 64 * 2 ^ 12 + n / 2 ^ 6 % 64 * 2 ^ 6 + n % 64 = n := by
    omega
  have h₁ := (digitChar_spec (n := n / 2 ^ 18) (by omega)).1
  have h₂ := (digitChar_spec (n := n / 2 ^ 12 % 64) (by omega)).1
  have h₃ := (digitChar_spec (n := n / 2 ^ 6 % 64) (by omega)).1
  have h₄ := (digitChar_spec (n := n % 64) (by omega)).1
  simp only [digits, List.cons_append, List.nil_append, decodeGroups, h₁, h₂, h₃, h₄,
    Option.bind_eq_bind, Option.bind_some, hn]
  cases decodeGroups s <;> rfl

theorem mem_digits {n : Nat} (h : n < 2 ^ 24) {c : UInt8} (hc : c ∈ digits n) :
    c ≠ 0x3d ∧ isSpace c = false := by
  simp only [digits, List.mem_cons, List.not_mem_nil, or_false] at hc
  rcases hc with rfl | rfl | rfl | rfl
  all_goals exact (digitChar_spec (by omega)).2

/-- No character of an encoding is a space. -/
theorem isSpace_encode64 (bs : List UInt8) : ∀ c ∈ encode64 bs, isSpace c = false := by
  have hpad : isSpace 0x3d = false := by decide
  induction bs using encode64.induct with
  | case1 => exact fun c hc ↦ absurd hc List.not_mem_nil
  | case2 a =>
      intro c hc
      rcases List.mem_append.mp hc with hc | hc
      · exact (mem_digits (value_lt_group a 0 0) (List.mem_of_mem_take hc)).2
      · simp only [List.mem_cons, List.not_mem_nil, or_false, or_self] at hc
        rw [hc, hpad]
  | case3 a b =>
      intro c hc
      rcases List.mem_append.mp hc with hc | hc
      · exact (mem_digits (value_lt_group a b 0) (List.mem_of_mem_take hc)).2
      · rw [List.mem_singleton.mp hc, hpad]
  | case4 a b c bs ih =>
      intro d hd
      rcases List.mem_append.mp hd with hd | hd
      · exact (mem_digits (value_lt_group a b c) hd).2
      · exact ih d hd

/-- Digits are left as they are when padding is replaced. -/
theorem map_unpad {s : List UInt8} (h : ∀ c ∈ s, c ≠ 0x3d) :
    s.map (fun c ↦ if c = 0x3d then 0x41 else c) = s := by
  have hid : s.map (fun c ↦ if c = 0x3d then 0x41 else c) = s.map id := by
    apply List.map_congr_left
    intro c hc
    exact if_neg (h c hc)
  rw [hid, List.map_id]

theorem count_padding {s : List UInt8} (h : ∀ c ∈ s, c ≠ 0x3d) : s.count 0x3d = 0 :=
  List.count_eq_zero_of_not_mem fun hmem ↦ h _ hmem rfl

/-- Where one byte of a group is missing, the last digit is zero. -/
theorem digits_pad_one (a b : UInt8) :
    (digits (value [a, b, 0])).take 3 ++ [0x41] = digits (value [a, b, 0]) := by
  have hvalue : value [a, b, 0] = (a.toNat * 256 + b.toNat) * 256 := by simp [value]
  have hlast : value [a, b, 0] % 64 = 0 := by omega
  rw [digits, hlast]
  rfl

/-- Where two bytes are missing, the last two digits are. -/
theorem digits_pad_two (a : UInt8) :
    (digits (value [a, 0, 0])).take 2 ++ [0x41, 0x41] = digits (value [a, 0, 0]) := by
  have hvalue : value [a, 0, 0] = a.toNat * 65536 := by simp [value, Nat.mul_assoc]
  have hlast : value [a, 0, 0] % 64 = 0 := by omega
  have hthird : value [a, 0, 0] / 2 ^ 6 % 64 = 0 := by omega
  rw [digits, hlast, hthird]
  rfl

/-- The digits of an encoding with its padding replaced are those of the bytes with zeros in
the place of the padding. -/
theorem decodeGroups_encode64 (bs : List UInt8) :
    decodeGroups ((encode64 bs).map fun c ↦ if c = 0x3d then 0x41 else c) =
      some (bs ++ List.replicate ((encode64 bs).count 0x3d) 0) := by
  induction bs using encode64.induct with
  | case1 => rfl
  | case2 a =>
      have hlt := value_lt_group a 0 0
      have hne : ∀ c ∈ (digits (value [a, 0, 0])).take 2, c ≠ 0x3d :=
        fun c hc ↦ (mem_digits hlt (List.mem_of_mem_take hc)).1
      have hbytes : bytes 3 (value [a, 0, 0]) = [a, 0, 0] := bytes_value [a, 0, 0]
      rw [encode64, List.map_append, map_unpad hne, List.count_append, count_padding hne]
      change decodeGroups (_ ++ [0x41, 0x41]) = _
      rw [digits_pad_two, ← List.append_nil (digits _), decodeGroups_digits hlt, hbytes]
      rfl
  | case3 a b =>
      have hlt := value_lt_group a b 0
      have hne : ∀ c ∈ (digits (value [a, b, 0])).take 3, c ≠ 0x3d :=
        fun c hc ↦ (mem_digits hlt (List.mem_of_mem_take hc)).1
      have hbytes : bytes 3 (value [a, b, 0]) = [a, b, 0] := bytes_value [a, b, 0]
      rw [encode64, List.map_append, map_unpad hne, List.count_append, count_padding hne]
      change decodeGroups (_ ++ [0x41]) = _
      rw [digits_pad_one, ← List.append_nil (digits _), decodeGroups_digits hlt, hbytes]
      rfl
  | case4 a b c bs ih =>
      have hlt := value_lt_group a b c
      have hne : ∀ d ∈ digits (value [a, b, c]), d ≠ 0x3d := fun d hd ↦ (mem_digits hlt hd).1
      have hbytes : bytes 3 (value [a, b, c]) = [a, b, c] := bytes_value [a, b, c]
      rw [encode64, List.map_append, map_unpad hne, List.count_append, count_padding hne,
        Nat.zero_add, decodeGroups_digits hlt, ih, Option.map_some, hbytes]
      rfl

/-! ## Decoding the salt -/

/-- Trimming removes the spaces around a text that has none. -/
theorem trim_eq {before s after : List UInt8} (hbefore : ∀ c ∈ before, isSpace c = true)
    (hs : ∀ c ∈ s, isSpace c = false) (hafter : ∀ c ∈ after, isSpace c = true) :
    trim (before ++ s ++ after) = s := by
  have hreverse : ∀ c ∈ s.reverse, isSpace c = false :=
    fun c hc ↦ hs c (List.mem_reverse.mp hc)
  have hafter' : ∀ c ∈ after.reverse, isSpace c = true :=
    fun c hc ↦ hafter c (List.mem_reverse.mp hc)
  rw [trim, List.append_assoc, List.dropWhile_append_of_pos hbefore]
  cases s with
  | nil =>
      rw [List.nil_append, List.dropWhile_eq_nil_iff.mpr hafter]
      rfl
  | cons c s =>
      have hc : ¬ isSpace c = true := by simp [hs c List.mem_cons_self]
      have hself : (c :: s).reverse.dropWhile isSpace = (c :: s).reverse := by
        rw [List.dropWhile_eq_self_iff]
        intro hpos
        rw [hreverse _ (List.getElem_mem hpos)]
        exact Bool.false_ne_true
      rw [List.cons_append, List.dropWhile_cons_of_neg hc, ← List.cons_append, List.reverse_append,
        List.dropWhile_append_of_pos hafter', hself, List.reverse_reverse]

section

variable {base64 : List UInt8 → Option (List UInt8)} {before decoded after : List UInt8}

/-- Trimming, replacing the padding and erasing what it has added recover the bytes that
were encoded. -/
theorem decodeSalt_encode64
    (hbase64 : ∀ s out, decodeGroups s = some out → base64 s = some out)
    (hbefore : ∀ c ∈ before, isSpace c = true) (hafter : ∀ c ∈ after, isSpace c = true) :
    decodeSalt base64 (before ++ encode64 decoded ++ after) = .ok decoded := by
  have htrim := trim_eq hbefore (isSpace_encode64 decoded) hafter
  have hdecode := hbase64 _ _ (decodeGroups_encode64 decoded)
  have hlen : (decoded ++ List.replicate ((encode64 decoded).count 0x3d) 0).length =
      decoded.length + (encode64 decoded).count 0x3d := by
    rw [List.length_append, List.length_replicate]
  rw [decodeSalt_eq, saltDigits, htrim, hdecode]
  dsimp only
  rw [hlen, if_pos (Nat.le_add_left _ _), Nat.add_sub_cancel, List.take_left]

end

/-! ## Hashing -/

/-- `SHA1Init`, `SHA1Update` and `SHA1Final` of one text. -/
def sha1 (text : List UInt8) : List UInt8 :=
  sha1Final (sha1Update sha1Init text (.ofNat 32 text.length)).1

theorem length_sha1Final (ctx : Ctx) : (sha1Final ctx).length = 20 := by
  rw [sha1Final]
  generalize (sha1Update (padZeros 64 (sha1Update ctx [0x80] 1).1) _ 8).1 = ctx'
  simp

theorem length_sha1 (text : List UInt8) : (sha1 text).length = 20 := length_sha1Final _

/-- The length as it is passed. -/
theorem sha1_of_length {text : List UInt8} {n : Nat} (h : text.length = n) :
    sha1Final (sha1Update sha1Init text (.ofNat 32 n)).1 = sha1 text := by
  rw [sha1, h]

/-- Hashing twenty bytes and twenty more is hashing all forty. -/
theorem sha1Update_twice {xs ys : List UInt8} (hxs : 20 ≤ xs.length) (hys : ys.length = 20) :
    (sha1Update (sha1Update sha1Init xs 20).1 ys 20).1 =
      (sha1Update sha1Init (xs.take 20 ++ ys) 40).1 := by
  -- none of these updates fills the buffer
  have hfirst : (sha1Update sha1Init xs 20).1 =
      ⟨sha1Init.state, (160, 0), overwrite sha1Init.buffer 0 (xs.take 20)⟩ :=
    congrArg Prod.fst (if_neg (by decide))
  have hsecond (buffer : List UInt8) : (sha1Update ⟨sha1Init.state, (160, 0), buffer⟩ ys 20).1 =
      ⟨sha1Init.state, (320, 0), overwrite buffer 20 (ys.take 20)⟩ := by
    rw [sha1Update]
    dsimp only
    rw [if_neg (by decide)]
    rfl
  have hboth (data : List UInt8) : (sha1Update sha1Init data 40).1 =
      ⟨sha1Init.state, (320, 0), overwrite sha1Init.buffer 0 (data.take 40)⟩ :=
    congrArg Prod.fst (if_neg (by decide))
  have htake : (xs.take 20).length = 20 := List.length_take_of_le hxs
  have hlen : (xs.take 20 ++ ys).length = 40 := by rw [List.length_append, htake, hys]
  have hjoin : overwrite (overwrite sha1Init.buffer 0 (xs.take 20)) (0 + (xs.take 20).length) ys =
      overwrite sha1Init.buffer 0 (xs.take 20 ++ ys) := overwrite_overwrite (Nat.zero_le _)
  rw [htake, Nat.zero_add] at hjoin
  rw [hboth, hfirst, hsecond, List.take_of_length_le (Nat.le_of_eq hys),
    List.take_of_length_le (Nat.le_of_eq hlen), hjoin]

/-- Hashing twenty bytes leaves them as they are. -/
theorem sha1Update_twenty_snd (data : List UInt8) : (sha1Update sha1Init data 20).2 = data :=
  congrArg Prod.snd (if_neg (by decide))

/-! ## The check of the server -/

/-- The exclusive or of two texts. -/
def xorBytes (xs ys : List UInt8) : List UInt8 := List.zipWith (· ^^^ ·) xs ys

/-- What a server that knows `h2` accepts as a scramble. -/
def Verifies (h2 decodedSalt scramble : List UInt8) : Prop :=
  sha1 (xorBytes scramble (sha1 (decodedSalt.take 20 ++ h2))) = h2

theorem xorBytes_cancel {xs ys : List UInt8} (h : xs.length = ys.length) :
    xorBytes (xorBytes xs ys) ys = xs := by
  induction xs generalizing ys with
  | nil => rfl
  | cons x xs ih =>
      cases ys with
      | nil => cases h
      | cons y ys =>
          have hrest : xorBytes (xorBytes xs ys) ys = xs := ih (Nat.succ.inj h)
          have hhead : x ^^^ y ^^^ y = x := by rw [UInt8.xor_assoc, UInt8.xor_self, UInt8.xor_zero]
          change (x ^^^ y ^^^ y) :: xorBytes (xorBytes xs ys) ys = x :: xs
          rw [hhead, hrest]

/-- With at least twenty bytes of salt, the scramble is the exclusive or of the hash of the
password and of a hash that the server can compute. -/
theorem scramblePassword_eq {base64 : List UInt8 → Option (List UInt8)} {salt decoded : List UInt8}
    (hdecode : decodeSalt base64 salt = .ok decoded) (hlen : 20 ≤ decoded.length)
    (password : List UInt8) :
    ∃ left, scramblePassword base64 password salt =
      .ok (xorBytes (sha1 password) (sha1 (decoded.take 20 ++ sha1 (sha1 password))), left) := by
  have hhash2 : sha1Final (sha1Update sha1Init (sha1 password) 20).1 = sha1 (sha1 password) :=
    sha1_of_length (length_sha1Final _)
  have hout : sha1Final
      (sha1Update (sha1Update sha1Init decoded 20).1 (sha1 (sha1 password)) 20).1 =
        sha1 (decoded.take 20 ++ sha1 (sha1 password)) := by
    rw [sha1Update_twice hlen (length_sha1 _)]
    apply sha1_of_length
    rw [List.length_append, List.length_take_of_le hlen, length_sha1]
  refine ⟨(sha1Update sha1Init password (.ofNat 32 password.length)).2, ?_⟩
  rw [scramblePassword, hdecode]
  dsimp only
  rw [if_neg (Nat.not_lt_of_le hlen), ← sha1, hhash2, hout, sha1Update_twenty_snd]
  rfl

/-- Whatever the password and whatever the salt in base64, the salt that was encoded is the
one that is decoded, and the scramble passes the check of the server. -/
theorem chap_sha1_verifies (base64 : List UInt8 → Option (List UInt8))
    (hbase64 : ∀ s out, decodeGroups s = some out → base64 s = some out)
    (password before decoded after : List UInt8) (hlen : 20 ≤ decoded.length)
    (hbefore : ∀ c ∈ before, isSpace c = true) (hafter : ∀ c ∈ after, isSpace c = true) :
    decodeSalt base64 (before ++ encode64 decoded ++ after) = .ok decoded ∧
      ∃ scramble left,
        scramblePassword base64 password (before ++ encode64 decoded ++ after) =
          .ok (scramble, left) ∧
        scramble.length = 20 ∧ Verifies (sha1 (sha1 password)) decoded scramble := by
  have hdecode : decodeSalt base64 (before ++ encode64 decoded ++ after) = .ok decoded :=
    decodeSalt_encode64 hbase64 hbefore hafter
  obtain ⟨left, hscramble⟩ := scramblePassword_eq hdecode hlen password
  have hsame : (sha1 password).length =
      (sha1 (decoded.take 20 ++ sha1 (sha1 password))).length := by
    rw [length_sha1, length_sha1]
  refine ⟨hdecode, _, left, hscramble, ?_, ?_⟩
  · rw [xorBytes, List.length_zipWith, length_sha1, length_sha1, Nat.min_self]
  · rw [Verifies, xorBytes_cancel hsame]

/-- A salt of 22 bytes, which takes two characters of padding. -/
theorem chap_sha1_verifies_secret :
    decodeSalt decodeGroups ([0x20] ++ encode64 (List.replicate 22 0x07) ++ [0x20, 0x0a]) =
        .ok (List.replicate 22 0x07) ∧
      ∃ scramble left,
        scramblePassword decodeGroups [0x73, 0x65, 0x63, 0x72, 0x65, 0x74]
            ([0x20] ++ encode64 (List.replicate 22 0x07) ++ [0x20, 0x0a]) =
          .ok (scramble, left) ∧
        scramble.length = 20 ∧
        Verifies (sha1 (sha1 [0x73, 0x65, 0x63, 0x72, 0x65, 0x74])) (List.replicate 22 0x07)
          scramble :=
  chap_sha1_verifies decodeGroups (fun _ _ h ↦ h) _ [0x20] (List.replicate 22 0x07) [0x20, 0x0a]
    (by decide) (List.forall_mem_singleton.mpr rfl)
    (List.forall_mem_cons.mpr ⟨rfl, List.forall_mem_singleton.mpr rfl⟩)

/-! ## The check with the hash of the standard -/

/-- One text in one call. -/
theorem sha1_eq {text : List UInt8} (h : text.length < 2 ^ 32) :
    sha1 text = SecureHash.sha1 text := by
  have hlen : (BitVec.ofNat 32 text.length).toNat = text.length := by
    rw [BitVec.toNat_ofNat]
    exact Nat.mod_eq_of_lt h
  exact (represents_sha1Init.update hlen (by rw [List.length_nil]; omega)).sha1Final

theorem length_secureHash_sha1 (text : List UInt8) : (SecureHash.sha1 text).length = 20 := by
  rw [SecureHash.sha1]
  generalize BlockHash.absorbed SecureHash.compress 64 SecureHash.initial _ = h
  simp [SecureHash.digest]

/-- What a server that has stored `hash` accepts as a scramble for its salt. -/
def Accepts (hash salt scramble : List UInt8) : Prop :=
  SecureHash.sha1 (xorBytes scramble (SecureHash.sha1 (salt.take 20 ++ hash))) = hash

/-- The scramble of the `chap-sha1` method. -/
def scrambleOf (password salt : List UInt8) : List UInt8 :=
  xorBytes (SecureHash.sha1 password)
    (SecureHash.sha1 (salt.take 20 ++ SecureHash.sha1 (SecureHash.sha1 password)))

theorem accepts_scrambleOf (password salt : List UInt8) :
    Accepts (SecureHash.sha1 (SecureHash.sha1 password)) salt (scrambleOf password salt) := by
  rw [Accepts, scrambleOf, xorBytes_cancel]
  rw [length_secureHash_sha1, length_secureHash_sha1]

/-- For every password of fewer than `2 ^ 32` bytes and every salt in base64,
`ScramblePassword` returns the scramble of the method, which a server accepts that has
stored the hash of the standard. -/
theorem scramblePassword_eq_scrambleOf (base64 : List UInt8 → Option (List UInt8))
    (hbase64 : ∀ s out, decodeGroups s = some out → base64 s = some out)
    (password before salt after : List UInt8) (hpassword : password.length < 2 ^ 32)
    (hsalt : 20 ≤ salt.length) (hbefore : ∀ c ∈ before, isSpace c = true)
    (hafter : ∀ c ∈ after, isSpace c = true) :
    ∃ scramble left,
      scramblePassword base64 password (before ++ encode64 salt ++ after) = .ok (scramble, left) ∧
      scramble = scrambleOf password salt ∧
      Accepts (SecureHash.sha1 (SecureHash.sha1 password)) salt scramble := by
  obtain ⟨left, hscramble⟩ :=
    scramblePassword_eq (decodeSalt_encode64 hbase64 hbefore hafter) hsalt password
  have hfirst : sha1 password = SecureHash.sha1 password := sha1_eq hpassword
  have hsecond : sha1 (sha1 password) = SecureHash.sha1 (SecureHash.sha1 password) := by
    rw [hfirst]
    exact sha1_eq (by rw [length_secureHash_sha1]; decide)
  have hthird : sha1 (salt.take 20 ++ sha1 (sha1 password)) =
      SecureHash.sha1 (salt.take 20 ++ SecureHash.sha1 (SecureHash.sha1 password)) := by
    rw [hsecond]
    refine sha1_eq ?_
    rw [List.length_append, List.length_take_of_le hsalt, length_secureHash_sha1]
    decide
  refine ⟨scrambleOf password salt, left, ?_, rfl, accepts_scrambleOf password salt⟩
  rw [hscramble, hthird, hfirst]
  rfl

end Tntpp
