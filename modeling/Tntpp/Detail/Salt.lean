import Tntpp.Detail.Crypto
import Tntpp.Detail.Greeting

/-!
# The salt of a greeting

The salt is whatever stands in the second line of a greeting.  `ScramblePassword` decodes
it, erases what padding has added and reads twenty bytes of the rest.  Whether they are
there depends on what the line decodes to, which nobody has checked; and what is thrown
while it is decoded nobody catches.  `asyncAuth_cases` is what comes of it.
-/

namespace Tntpp

open BigEndian Block

section

variable (base64 : List UInt8 → Option (List UInt8))

/-- A salt is safe to use. -/
structure SaltSafe (credentials : Credentials) (salt : List UInt8) : Prop where
  /-- No more is erased than was decoded. -/
  erases : scramblePassword base64 credentials.password salt ≠ .error .erase
  /-- Nothing is read beyond the end. -/
  reads : scramblePassword base64 credentials.password salt ≠ .error .overread
  /-- A salt that does not give twenty bytes makes the authentication fail. -/
  fails : ¬ ValidSalt base64 salt → ∃ ec,
    asyncAuth (scrambler base64) (some credentials) salt = .completed ec ∧ ec.failed = true

/-- The digits that are decoded: what is between the spaces, with padding replaced. -/
def saltDigits (salt : List UInt8) : List UInt8 :=
  (trim salt).map fun c ↦ if c = 0x3d then 0x41 else c

/-- Without what padding has added, enough is decoded for a scramble. -/
def SaltSuffices (salt : List UInt8) : Prop :=
  ∃ decoded, base64 (saltDigits salt) = some decoded ∧
    (trim salt).count 0x3d + 20 ≤ decoded.length

variable {base64} {salt : List UInt8}

theorem decodeSalt_eq (base64 : List UInt8 → Option (List UInt8)) (salt : List UInt8) :
    decodeSalt base64 salt =
      match base64 (saltDigits salt) with
      | none => .error .dataflow
      | some decoded =>
          if (trim salt).count 0x3d ≤ decoded.length then
            .ok (decoded.take (decoded.length - (trim salt).count 0x3d))
          else .error .erase := rfl

theorem validSalt_iff : ValidSalt base64 salt ↔ SaltSuffices base64 salt := by
  rw [ValidSalt, SaltSuffices, decodeSalt_eq]
  cases hdecoded : base64 (saltDigits salt) with
  | none =>
      refine iff_of_false ?_ ?_
      · rintro ⟨_, ⟨⟩, -⟩
      · rintro ⟨_, ⟨⟩, -⟩
  | some decoded =>
      dsimp only
      constructor
      · rintro ⟨decodedSalt, hsalt, hle⟩
        split_ifs at hsalt with herase
        · cases hsalt
          rw [List.length_take_of_le (Nat.sub_le _ _)] at hle
          exact ⟨decoded, rfl, by omega⟩
      · rintro ⟨_, ⟨⟩, hle⟩
        refine ⟨_, if_pos (Nat.le_of_add_right_le hle), ?_⟩
        rw [List.length_take_of_le (Nat.sub_le _ _)]
        omega

/-- A salt that is too short is read beyond its end, or more is erased than there is. -/
theorem scramblePassword_of_short {decoded : List UInt8}
    (hdecoded : base64 (saltDigits salt) = some decoded)
    (hshort : decoded.length < (trim salt).count 0x3d + 20) (password : List UInt8) :
    scramblePassword base64 password salt = .error .erase ∨
      scramblePassword base64 password salt = .error .overread := by
  rw [scramblePassword, decodeSalt_eq, hdecoded]
  dsimp only
  split_ifs with herase
  · refine Or.inr (if_pos ?_)
    rw [List.length_take_of_le (Nat.sub_le _ _)]
    omega
  · exact Or.inl rfl

/-- What becomes of an authentication is a matter of the salt alone: an exception where it
is not decoded, undefined behaviour where it is too short, and a request otherwise. -/
theorem asyncAuth_cases (base64 : List UInt8 → Option (List UInt8)) (credentials : Credentials)
    (salt : List UInt8) :
    (base64 (saltDigits salt) = none ∧
        asyncAuth (scrambler base64) (some credentials) salt = .thrown) ∨
      (∃ decoded, base64 (saltDigits salt) = some decoded ∧
        decoded.length < (trim salt).count 0x3d + 20 ∧
        ∃ fault, asyncAuth (scrambler base64) (some credentials) salt = .undefined fault) ∨
      SaltSuffices base64 salt ∧ ∃ scramble,
        asyncAuth (scrambler base64) (some credentials) salt =
          .sent credentials.username scramble := by
  cases hdecoded : base64 (saltDigits salt) with
  | none =>
      refine Or.inl ⟨rfl, asyncAuth_of_dataflow ?_⟩
      rw [scrambler, scramblePassword, decodeSalt_eq, hdecoded]
      rfl
  | some decoded =>
      rcases Nat.lt_or_ge decoded.length ((trim salt).count 0x3d + 20) with hshort | hle
      · refine Or.inr (Or.inl ⟨decoded, rfl, hshort, ?_⟩)
        rcases scramblePassword_of_short hdecoded hshort credentials.password with h | h
        · exact ⟨.erase, asyncAuth_of_fault (by decide) (congrArg (Except.map Prod.fst) h)⟩
        · exact ⟨.overread, asyncAuth_of_fault (by decide) (congrArg (Except.map Prod.fst) h)⟩
      · have hsuffices : SaltSuffices base64 salt := ⟨decoded, hdecoded, hle⟩
        obtain ⟨scramble, hscramble⟩ :=
          scramblePassword_of_validSalt (validSalt_iff.mpr hsuffices) credentials.password
        exact Or.inr (Or.inr ⟨hsuffices, scramble,
          asyncAuth_of_scramble (congrArg (Except.map Prod.fst) hscramble)⟩)

theorem saltSafe_iff (credentials : Credentials) (salt : List UInt8) :
    SaltSafe base64 credentials salt ↔ SaltSuffices base64 salt := by
  constructor
  · intro hsafe
    by_contra hshort
    obtain ⟨ec, hec, -⟩ := hsafe.fails fun hvalid ↦ hshort (validSalt_iff.mp hvalid)
    exact asyncAuth_ne_completed ec hec
  · intro hsuffices
    have hvalid := validSalt_iff.mpr hsuffices
    obtain ⟨scramble, hscramble⟩ := scramblePassword_of_validSalt hvalid credentials.password
    exact {
      erases := hscramble ▸ nofun
      reads := hscramble ▸ nofun
      fails := absurd hvalid }

end

/-! ## Groups of digits -/

/-- Four digits make three bytes. -/
theorem length_decodeGroups {s decoded : List UInt8} (h : decodeGroups s = some decoded) :
    4 * decoded.length = 3 * s.length := by
  induction s using decodeGroups.induct generalizing decoded with
  | case1 =>
      obtain rfl := Option.some.inj h
      rfl
  | case2 a b c d s ih =>
      simp only [decodeGroups, Option.bind_eq_bind, Option.pure_def, Option.bind_eq_some_iff,
        Option.some_inj] at h
      obtain ⟨_, -, _, -, _, -, _, -, rest, hrest, rfl⟩ := h
      have hlen := ih hrest
      rw [List.length_append, length_bytes]
      simp only [List.length_cons]
      omega
  | case3 s hnil hcons =>
      rw [decodeGroups] at h
      · cases h
      · exact hnil
      · exact hcons

/-- Where groups of four digits are decoded and nothing else, it is the length of the text
that matters. -/
theorem saltSuffices_decodeGroups_iff (salt : List UInt8) :
    SaltSuffices decodeGroups salt ↔
      (decodeGroups (saltDigits salt)).isSome = true ∧
        4 * ((trim salt).count 0x3d + 20) ≤ 3 * (trim salt).length := by
  have hlength : (saltDigits salt).length = (trim salt).length := List.length_map _
  constructor
  · rintro ⟨decoded, hdecoded, hle⟩
    have hgroups := length_decodeGroups hdecoded
    exact ⟨hdecoded ▸ rfl, by omega⟩
  · rintro ⟨hsome, hle⟩
    obtain ⟨decoded, hdecoded⟩ := Option.isSome_iff_exists.mp hsome
    have hgroups := length_decodeGroups hdecoded
    exact ⟨decoded, hdecoded, by omega⟩

instance (salt : List UInt8) : Decidable (SaltSuffices decodeGroups salt) :=
  decidable_of_iff _ (saltSuffices_decodeGroups_iff salt).symm

/-! ## The salt that is accepted -/

/-- The salt of an accepted greeting is safe to use if and only if its second line, without
its padding, decodes to at least twenty bytes. -/
theorem hello_salt_safe_iff (base64 : List UInt8 → Option (List UInt8)) {s s' : AsyncReadStream}
    {salt : List UInt8} (h : readTarantoolHello s = (({}, salt), s'))
    (credentials : Credentials) :
    SaltSafe base64 credentials salt ↔
      SaltSuffices base64 (slice s.segments.flatten 64 64) := by
  by_cases hvalid : ValidHello (s.segments.flatten.take 128)
  · obtain ⟨rest, hread, -⟩ := readTarantoolHello_of_valid hvalid
    obtain rfl : slice s.segments.flatten 64 64 = salt :=
      congrArg (fun r ↦ r.1.2) (hread.symm.trans h)
    exact saltSafe_iff credentials _
  · obtain ⟨ec, s'', hread, hfailed⟩ := readTarantoolHello_of_not_valid hvalid
    obtain rfl : ec = {} := congrArg (fun r ↦ r.1.1) (hread.symm.trans h)
    cases hfailed

/-- A salt of 32 bytes, as servers send it. -/
theorem hello_salt_safe_zero :
    SaltSafe decodeGroups ⟨[0x75], [0x73, 0x65, 0x63, 0x72, 0x65, 0x74]⟩
      (saltLine (List.replicate 43 0x41 ++ [0x3d])) := by
  obtain ⟨s', hread⟩ := readTarantoolHello_greetingWith
    (List.replicate 43 0x41 ++ [0x3d]) (by decide)
  exact (hello_salt_safe_iff decodeGroups hread _).mpr (by decide)

/-- Three greetings that are accepted.  Of blank lines twenty bytes are read of no salt at
all; of a second line that is padding more is erased than there is; and a second line that
is not base64 throws, and the authentication does not complete. -/
theorem accepted_hellos_not_safe :
    (∃ salt s', readTarantoolHello (greetingWith []) = (({}, salt), s') ∧
      asyncAuth (scrambler decodeGroups) (some ⟨[0x75], [0x70]⟩) salt = .undefined .overread ∧
      ¬ SaltSafe decodeGroups ⟨[0x75], [0x70]⟩ salt) ∧
    (∃ salt s', readTarantoolHello (greetingWith (List.replicate 60 0x3d)) = (({}, salt), s') ∧
      asyncAuth (scrambler decodeGroups) (some ⟨[0x75], [0x70]⟩) salt = .undefined .erase ∧
      ¬ SaltSafe decodeGroups ⟨[0x75], [0x70]⟩ salt) ∧
    ∃ salt s', readTarantoolHello (greetingWith (List.replicate 44 0x21)) = (({}, salt), s') ∧
      asyncAuth (scrambler decodeGroups) (some ⟨[0x75], [0x70]⟩) salt = .thrown ∧
      ¬ SaltSafe decodeGroups ⟨[0x75], [0x70]⟩ salt := by
  refine ⟨?_, ?_, ?_⟩
  · obtain ⟨s', hread⟩ := readTarantoolHello_greetingWith [] (by decide)
    refine ⟨_, s', hread, rfl, fun hsafe ↦ ?_⟩
    exact absurd ((saltSafe_iff _ _).mp hsafe) (by decide)
  · obtain ⟨s', hread⟩ := readTarantoolHello_greetingWith (List.replicate 60 0x3d) (by decide)
    refine ⟨_, s', hread, rfl, fun hsafe ↦ ?_⟩
    exact absurd ((saltSafe_iff _ _).mp hsafe) (by decide)
  · obtain ⟨s', hread⟩ := readTarantoolHello_greetingWith (List.replicate 44 0x21) (by decide)
    refine ⟨_, s', hread, rfl, fun hsafe ↦ ?_⟩
    exact absurd ((saltSafe_iff _ _).mp hsafe) (by decide)

end Tntpp
