import Tntpp.Detail.ErrorCode
import Tntpp.Detail.Sha1Memory

/-!
# Scrambling a password

`ScramblePassword` of `tntpp_crypto.h`.  It hashes the password where the caller keeps it,
so its result is a scramble and what is left in that memory.  The base64 iterators of boost
are a parameter: they give the bytes a text stands for, or throw.  What they throw nobody
catches: `asyncAuth` is the part of `Connector::async_auth` around the call.

The caller keeps the password in its configuration and scrambles it anew for every
connection.  `KeepsPassword` is what it relies on.
-/

namespace Tntpp

open BigEndian Sha1

/-- How scrambling fails. -/
inductive ScrambleFault where
  /-- The iterators throw a `dataflow_exception`. -/
  | dataflow
  /-- More padding is erased than there are bytes, which is undefined. -/
  | erase
  /-- Twenty bytes are read of a salt that is shorter, which is undefined. -/
  | overread
deriving DecidableEq, Repr

/-- The characters `trim` removes. -/
def isSpace (c : UInt8) : Bool := c = 0x20 || (0x09 ≤ c && c ≤ 0x0d)

/-- `boost::algorithm::trim`. -/
def trim (s : List UInt8) : List UInt8 :=
  ((s.dropWhile isSpace).reverse.dropWhile isSpace).reverse

section

variable (base64 : List UInt8 → Option (List UInt8))

/-- The first part of `ScramblePassword`: padding is replaced by digits that stand for
zero, and what they have added is erased. -/
def decodeSalt (salt : List UInt8) : Except ScrambleFault (List UInt8) :=
  let salt := trim salt
  let paddChars := salt.count 0x3d
  let salt := salt.map fun c ↦ if c = 0x3d then 0x41 else c
  match base64 salt with
  | none => .error .dataflow
  | some decodedSalt =>
      if paddChars ≤ decodedSalt.length then
        .ok (decodedSalt.take (decodedSalt.length - paddChars))
      else .error .erase

/-- `ScramblePassword`: the scramble, and what is left in the memory of the password. -/
def scramblePassword (password salt : List UInt8) :
    Except ScrambleFault (List UInt8 × List UInt8) :=
  match decodeSalt base64 salt with
  | .error fault => .error fault
  | .ok decodedSalt =>
      let (ctx, password) := sha1Update sha1Init password (.ofNat 32 password.length)
      let hash1 := sha1Final ctx
      let (ctx, hash1) := sha1Update sha1Init hash1 20
      let hash2 := sha1Final ctx
      if decodedSalt.length < 20 then .error .overread
      else
        let (ctx, _) := sha1Update sha1Init decodedSalt 20
        let (ctx, _) := sha1Update ctx hash2 20
        let out := sha1Final ctx
        .ok (List.zipWith (· ^^^ ·) hash1 out, password)

/-- The scramble alone. -/
def scrambler (password salt : List UInt8) : Except ScrambleFault (List UInt8) :=
  (scramblePassword base64 password salt).map Prod.fst

/-- The scrambles of a number of calls, and what they leave of the password. -/
def scrambles (password salt : List UInt8) :
    Nat → Except ScrambleFault (List (List UInt8) × List UInt8)
  | 0 => .ok ([], password)
  | n + 1 => do
      let (done, password) ← scrambles password salt n
      let (scramble, password) ← scramblePassword base64 password salt
      return (done ++ [scramble], password)

/-- A salt that has the bytes a scramble is made with. -/
def ValidSalt (salt : List UInt8) : Prop :=
  ∃ decodedSalt, decodeSalt base64 salt = .ok decodedSalt ∧ 20 ≤ decodedSalt.length

/-- Scrambling does not disturb the password: a call leaves it as it was, and any number of
calls give the same scramble. -/
structure KeepsPassword (password salt : List UInt8) : Prop where
  /-- One call. -/
  kept : ∃ scramble, scramblePassword base64 password salt = .ok (scramble, password)
  /-- Any number of calls. -/
  same : ∃ scramble, ∀ n,
    scrambles base64 password salt n = .ok (List.replicate n scramble, password)

variable {base64} {password salt : List UInt8}

/-- With a valid salt there is a scramble, and the password becomes what hashing it
leaves. -/
theorem scramblePassword_of_validSalt (h : ValidSalt base64 salt) (password : List UInt8) :
    ∃ scramble, scramblePassword base64 password salt =
      .ok (scramble, (sha1Update sha1Init password (.ofNat 32 password.length)).2) := by
  obtain ⟨decodedSalt, hdecode, hlength⟩ := h
  rw [scramblePassword, hdecode]
  dsimp only
  rw [if_neg (Nat.not_lt_of_le hlength)]
  exact ⟨_, rfl⟩

/-- Calls that leave the password as it was are all the same call. -/
theorem scrambles_of_kept {scramble : List UInt8}
    (h : scramblePassword base64 password salt = .ok (scramble, password)) (n : Nat) :
    scrambles base64 password salt n = .ok (List.replicate n scramble, password) := by
  induction n with
  | zero => rfl
  | succ n ih =>
      rw [scrambles, ih]
      change (scramblePassword base64 password salt >>= _) = _
      rw [h, List.replicate_succ']
      rfl

/-- What hashing leaves of a password. -/
theorem sha1Update_password_eq_iff (password : List UInt8) :
    (sha1Update sha1Init password (.ofNat 32 password.length)).2 = password ↔
      ZeroBlocks password (password.length % 2 ^ 32) := by
  have hlen : (BitVec.ofNat 32 password.length).toNat = password.length % 2 ^ 32 :=
    BitVec.toNat_ofNat _ _
  rw [sha1Update_init_snd_eq_iff (hlen ▸ Nat.mod_le _ _), hlen]

theorem kept_iff (h : ValidSalt base64 salt) :
    (∃ scramble, scramblePassword base64 password salt = .ok (scramble, password)) ↔
      ZeroBlocks password (password.length % 2 ^ 32) := by
  obtain ⟨scramble, hscramble⟩ := scramblePassword_of_validSalt h password
  rw [← sha1Update_password_eq_iff, hscramble]
  constructor
  · rintro ⟨scramble', heq⟩
    exact congrArg Prod.snd (Except.ok.inj heq)
  · intro hkept
    refine ⟨scramble, ?_⟩
    rw [hkept]

end

/-- With a valid salt, scrambling does not disturb a password if and only if its bytes from
the 65th to the last that fills a block of 64 are zero. -/
theorem keepsPassword_iff (base64 : List UInt8 → Option (List UInt8)) (password salt : List UInt8)
    (h : ValidSalt base64 salt) :
    KeepsPassword base64 password salt ↔
      ∀ i, 64 ≤ i → i < 64 * (password.length % 2 ^ 32 / 64) → password[i]? = some 0 := by
  constructor
  · intro hkeeps
    exact (kept_iff h).mp hkeeps.kept
  · intro hzero
    obtain ⟨scramble, hscramble⟩ := (kept_iff h).mpr hzero
    exact ⟨⟨scramble, hscramble⟩, scramble, scrambles_of_kept hscramble⟩

/-! ## Authentication -/

/-- The credentials of a configuration. -/
structure Credentials where
  /-- The user. -/
  username : List UInt8
  /-- The password. -/
  password : List UInt8
deriving DecidableEq, Repr

/-- What becomes of an authentication before there is an answer. -/
inductive AuthStart where
  /-- The request is sent. -/
  | sent (username scramble : List UInt8)
  /-- The operation completes. -/
  | completed (ec : ErrorCode)
  /-- An exception leaves the coroutine, and its handler is never called. -/
  | thrown
  /-- The behaviour is undefined. -/
  | undefined (fault : ScrambleFault)
deriving DecidableEq

/-- `Connector::async_auth` up to its request.  Neither it nor the functions that await it
catch what leaves `ScramblePassword`. -/
def asyncAuth (scramblePassword : List UInt8 → List UInt8 → Except ScrambleFault (List UInt8))
    (credentials : Option Credentials) (salt : List UInt8) : AuthStart :=
  match credentials with
  | none => .completed {}
  | some credentials =>
      match scramblePassword credentials.password salt with
      | .ok scramble => .sent credentials.username scramble
      | .error .dataflow => .thrown
      | .error fault => .undefined fault

section

variable {scramblePassword : List UInt8 → List UInt8 → Except ScrambleFault (List UInt8)}
  {credentials : Credentials} {salt : List UInt8}

theorem asyncAuth_of_scramble {scramble : List UInt8}
    (h : scramblePassword credentials.password salt = .ok scramble) :
    asyncAuth scramblePassword (some credentials) salt = .sent credentials.username scramble := by
  rw [asyncAuth, h]

theorem asyncAuth_of_dataflow
    (h : scramblePassword credentials.password salt = .error .dataflow) :
    asyncAuth scramblePassword (some credentials) salt = .thrown := by
  rw [asyncAuth, h]

theorem asyncAuth_of_fault {fault : ScrambleFault} (hne : fault ≠ .dataflow)
    (h : scramblePassword credentials.password salt = .error fault) :
    asyncAuth scramblePassword (some credentials) salt = .undefined fault := by
  rw [asyncAuth, h]
  cases fault with
  | dataflow => exact absurd rfl hne
  | erase | overread => rfl

/-- With credentials, nothing completes before the request. -/
theorem asyncAuth_ne_completed (ec : ErrorCode) :
    asyncAuth scramblePassword (some credentials) salt ≠ .completed ec := by
  cases h : scramblePassword credentials.password salt with
  | ok scramble =>
      rw [asyncAuth_of_scramble h]
      exact AuthStart.noConfusion
  | error fault =>
      by_cases hfault : fault = .dataflow
      · rw [asyncAuth_of_dataflow (hfault ▸ h)]
        exact AuthStart.noConfusion
      · rw [asyncAuth_of_fault hfault h]
        exact AuthStart.noConfusion

end

/-! ## Groups of digits -/

/-- The value of a base64 digit. -/
def digitValue (c : UInt8) : Option Nat :=
  if 0x41 ≤ c ∧ c ≤ 0x5a then some (c.toNat - 0x41)
  else if 0x61 ≤ c ∧ c ≤ 0x7a then some (c.toNat - 0x61 + 26)
  else if 0x30 ≤ c ∧ c ≤ 0x39 then some (c.toNat - 0x30 + 52)
  else if c = 0x2b then some 62
  else if c = 0x2f then some 63
  else none

/-- The bytes of a text of groups of four digits. -/
def decodeGroups : List UInt8 → Option (List UInt8)
  | [] => some []
  | a :: b :: c :: d :: s => do
      let a ← digitValue a
      let b ← digitValue b
      let c ← digitValue c
      let d ← digitValue d
      return bytes 3 (a * 2 ^ 18 + b * 2 ^ 12 + c * 2 ^ 6 + d) ++ (← decodeGroups s)
  | _ => none

/-- Twenty zero bytes, with spaces around. -/
def zeroSalt : List UInt8 := 0x20 :: (List.replicate 27 0x41 ++ [0x3d, 0x20])

theorem validSalt_zeroSalt : ValidSalt decodeGroups zeroSalt :=
  ⟨List.replicate 20 0, rfl, Nat.le_refl 20⟩

/-- A password of six bytes. -/
theorem keepsPassword_six :
    KeepsPassword decodeGroups [0x73, 0x65, 0x63, 0x72, 0x65, 0x74] zeroSalt := by
  refine (keepsPassword_iff decodeGroups _ zeroSalt validSalt_zeroSalt).mpr ?_
  intro i _ hlt
  exact absurd hlt (Nat.not_lt_zero i)

/-- A password of 128 bytes is not the same after it was scrambled. -/
theorem long_password_disturbed :
    ValidSalt decodeGroups zeroSalt ∧
      ¬ KeepsPassword decodeGroups (List.replicate 128 0x61) zeroSalt := by
  refine ⟨validSalt_zeroSalt, fun h ↦ ?_⟩
  have hzero := (kept_iff validSalt_zeroSalt).mp h.kept
  rw [List.length_replicate] at hzero
  have hbyte := hzero 64 (Nat.le_refl 64) (by decide)
  rw [List.getElem?_replicate] at hbyte
  exact absurd hbyte (by decide)

end Tntpp
