import Tntpp.Detail.Frame

/-!
# Decoding a body

`get_error_string` and `as` go through the entries of a body in the same way: they look
for one field, leave out the entries in front of it, and stop at the first key that is not
a non-negative number.  Nothing behind the field is looked at.

What they return is therefore a matter of two things, `leadingUint` and `firstValue`, and
each function has one lemma in terms of these.
-/

namespace Tntpp

open MsgPack (Object Codec)

/-! ## The entries of a body -/

/-- The key of an entry is a non-negative number. -/
def uintKey : Object × Object → Bool
  | (.uint _, _) => true
  | _ => false

/-- The key of an entry is a number. -/
def integerKey : Object × Object → Bool
  | (.uint _, _) => true
  | (.nint _, _) => true
  | _ => false

/-- An entry is for a field. -/
def isField (f : FieldType) : Object × Object → Bool
  | (.uint key, _) => key = f.value
  | _ => false

/-- All keys of a map are numbers. -/
def integerKeys (kvs : List (Object × Object)) : Bool := kvs.all integerKey

/-- The value of the first entry for a field. -/
def firstValue (f : FieldType) (kvs : List (Object × Object)) : Option Object :=
  (kvs.find? (isField f)).map Prod.snd

/-- All keys in front of that entry are non-negative. -/
def leadingUint (f : FieldType) (kvs : List (Object × Object)) : Bool :=
  (kvs.takeWhile fun kv ↦ !isField f kv).all uintKey

section

variable {f : FieldType} {key : MpUint} {val : Object} {kvs : List (Object × Object)}

theorem firstValue_field : firstValue f ((.uint f.value, val) :: kvs) = some val := by
  simp [firstValue, isField]

theorem leadingUint_field : leadingUint f ((.uint f.value, val) :: kvs) = true := by
  simp [leadingUint, isField]

theorem firstValue_of_ne (h : key ≠ f.value) :
    firstValue f ((.uint key, val) :: kvs) = firstValue f kvs := by
  simp [firstValue, isField, h]

theorem leadingUint_of_ne (h : key ≠ f.value) :
    leadingUint f ((.uint key, val) :: kvs) = leadingUint f kvs := by
  simp [leadingUint, isField, uintKey, h]

theorem leadingUint_of_uintKey {kv : Object × Object} (h : uintKey kv = false) :
    leadingUint f (kv :: kvs) = false := by
  have hfield : isField f kv = false := by
    rcases kv with ⟨key, val⟩
    cases key with
    | uint n => cases h
    | _ => rfl
  simp [leadingUint, hfield, h]

end

/-- A function that goes through entries in this way returns `found` of the value of the
field, `missing` where there is no such entry, and `bad` where another key comes first that
is not a non-negative number. -/
theorem scan_eq {α : Type} {scan : List (Object × Object) → α} {f : FieldType} {missing bad : α}
    {found : Object → α} (hnil : scan [] = missing)
    (hfield : ∀ val kvs, scan ((.uint f.value, val) :: kvs) = found val)
    (hne : ∀ key val kvs, key ≠ f.value → scan ((.uint key, val) :: kvs) = scan kvs)
    (hbad : ∀ kv kvs, uintKey kv = false → scan (kv :: kvs) = bad) (kvs : List (Object × Object)) :
    scan kvs = if leadingUint f kvs then (firstValue f kvs).elim missing found else bad := by
  induction kvs with
  | nil => exact hnil
  | cons kv kvs ih =>
      obtain ⟨key, val⟩ := kv
      cases key with
      | uint key =>
          by_cases hkey : key = f.value
          · subst hkey
            rw [hfield, leadingUint_field, firstValue_field]
            rfl
          · rw [hne key val kvs hkey, leadingUint_of_ne hkey, firstValue_of_ne hkey, ih]
      | _ =>
          rw [hbad _ _ rfl, leadingUint_of_uintKey rfl]
          rfl

namespace IprotoFrame

/-! ## The error string -/

/-- The loop of `get_error_string`. -/
theorem findErrorString_eq (kvs : List (Object × Object)) :
    findErrorString kvs =
      if leadingUint .error24 kvs then (firstValue .error24 kvs).elim (.ok []) asString
      else .ok [] := by
  refine scan_eq rfl ?_ ?_ ?_ kvs
  · intro val kvs
    rw [findErrorString, intToFieldType_value]
  · intro key val kvs hkey
    rw [findErrorString]
    split
    · next h => exact absurd (intToFieldType_eq_some_iff.mp h) hkey
    · rfl
  · rintro ⟨key, val⟩ kvs hbad
    cases key with
    | uint key => cases hbad
    | _ => rfl

/-- The text among the entries of a body: the string under the first `Error_24`, if all keys
are numbers. -/
def entriesText (kvs : List (Object × Object)) : List UInt8 :=
  if integerKeys kvs then
    match firstValue .error24 kvs with
    | some (.str s) => s
    | _ => []
  else []

/-- The text of an error; a body that is not a map has none. -/
def errorText (mp : Codec) (body : List UInt8) : List UInt8 :=
  match mp.unpack body with
  | some (.map kvs, _) => entriesText kvs
  | _ => []

/-- Where `get_error_string` finds the text among the entries.  A byte array is returned
like a string, and a value of another type is never returned; neither is looked at behind
a key that is not a non-negative number. -/
def TextFound (kvs : List (Object × Object)) : Prop :=
  match firstValue .error24 kvs with
  | none => True
  | some (.str s) => s = [] ∨ leadingUint .error24 kvs = integerKeys kvs
  | some (.bin s) => s = [] ∨ leadingUint .error24 kvs = false
  | some _ => leadingUint .error24 kvs = false

theorem noexcept_findErrorString_iff (kvs : List (Object × Object)) :
    noexcept (findErrorString kvs) = .ok (entriesText kvs) ↔ TextFound kvs := by
  rw [findErrorString_eq, entriesText, TextFound]
  cases firstValue .error24 kvs with
  | none => cases leadingUint .error24 kvs <;> cases integerKeys kvs <;> simp [noexcept]
  | some val =>
      -- what is returned depends on the type of the value and on the keys in front of it
      cases val <;> cases leadingUint .error24 kvs <;> cases integerKeys kvs <;>
        simp [noexcept, asString, eq_comm]

/-- The error string of a frame is the text of its error if and only if the body can be
unpacked and, where it is a map, the text is found. -/
theorem getErrorString_eq_iff (mp : Codec) (f : IprotoFrame (List UInt8))
    (h : f.isError = true) :
    getErrorString mp f = .ok (errorText mp f.body) ↔
      ∃ object offset, mp.unpack f.body = some (object, offset) ∧
        ∀ kvs, object = .map kvs → TextFound kvs := by
  rw [getErrorString, if_pos h, errorText]
  rcases hunpack : mp.unpack f.body with _ | ⟨object, offset⟩
  · refine iff_of_false ?_ ?_
    · rintro ⟨⟩
    · rintro ⟨_, _, ⟨⟩, -⟩
  · cases object with
    | map kvs =>
        refine (noexcept_findErrorString_iff kvs).trans ⟨?_, ?_⟩
        · rintro htext
          refine ⟨_, _, rfl, ?_⟩
          rintro _ ⟨⟩
          exact htext
        · rintro ⟨_, _, ⟨⟩, htext⟩
          exact htext kvs rfl
    | _ =>
        refine iff_of_true rfl ⟨_, _, rfl, ?_⟩
        rintro kvs ⟨⟩

/-- An error of the server and its text. -/
def noSuchSpace : IprotoFrame (List UInt8) where
  header := { requestType := 0x8024 }
  body := [0x81, 0x31, 0xa2, 0x6e, 0x6f]

theorem getErrorString_noSuchSpace :
    getErrorString .reference noSuchSpace = .ok (errorText .reference noSuchSpace.body) := by
  have hunpack : Codec.reference.unpack noSuchSpace.body =
      some (.map [(.uint 0x31, .str [0x6e, 0x6f])], 5) := rfl
  refine (getErrorString_eq_iff .reference noSuchSpace (by decide)).mpr ⟨_, _, hunpack, ?_⟩
  rintro _ ⟨⟩
  exact .inr rfl

/-- An error without a body ends the process, and so does one whose text is `nil`. -/
theorem getErrorString_terminates :
    (getErrorString .reference { noSuchSpace with body := [] } = .error .terminate ∧
      getErrorString .reference { noSuchSpace with body := [] } ≠ .ok (errorText .reference [])) ∧
    (getErrorString .reference { noSuchSpace with body := [0x81, 0x31, 0xc0] } =
        .error .terminate ∧
      getErrorString .reference { noSuchSpace with body := [0x81, 0x31, 0xc0] } ≠
        .ok (errorText .reference [0x81, 0x31, 0xc0])) := by
  refine ⟨⟨rfl, ?_⟩, rfl, ?_⟩
  · rintro ⟨⟩
  · rintro ⟨⟩

/-! ## The result -/

section

variable {τ : Type}

/-- The loop of `as`. -/
theorem findData_eq (convert : Object → τ → Except τ τ) (v : τ) (kvs : List (Object × Object)) :
    findData convert v kvs =
      if leadingUint .data kvs then
        (firstValue .data kvs).elim (.error (.terminate, v))
          fun val ↦ (convert val v).mapError (.typeError, ·)
      else .error (.typeError, v) := by
  refine scan_eq rfl ?_ ?_ ?_ kvs
  · intro val kvs
    rw [findData, intToFieldType_value]
  · intro key val kvs hkey
    rw [findData]
    split
    · next h => exact absurd (intToFieldType_eq_some_iff.mp h) hkey
    · rfl
  · rintro ⟨key, val⟩ kvs hbad
    cases key with
    | uint key => cases hbad
    | _ => rfl

/-- A call with an error code agrees with one that throws: it returns, the error code
tests true if and only if the other call throws, and otherwise the results are the same. -/
def Agrees {ε : Type} (thrown : Except ε τ) (returned : Except Exn (τ × ErrorCode)) : Prop :=
  ∃ t ec, returned = .ok (t, ec) ∧ (ec.failed = true ↔ ∃ e, thrown = .error e) ∧
    ∀ t', thrown = .ok t' → t = t'

/-- Both overloads with an error code agree with the one that throws.  `convert val v` is
the adaptor of the result type: it writes into a tuple that holds `v`, and leaves alone
the elements `val` has no value for. -/
structure DecodersAgree (mp : Codec) (convert : Object → τ → Except τ τ) (default v : τ)
    (ec : ErrorCode) (f : IprotoFrame (List UInt8)) : Prop where
  /-- `as(ec)` and `as()`. -/
  asEc : Agrees (as mp convert default f) (asEc mp convert default f ec)
  /-- `as(v, ec)` and `as(v)`. -/
  asIntoEc : Agrees (asInto mp convert f v) (asIntoEc mp convert f v ec)

/-- A body is a map whose keys are non-negative numbers, and none of them is `Data`. -/
def NoData (mp : Codec) (body : List UInt8) : Prop :=
  ∃ kvs offset, mp.unpack body = some (.map kvs, offset) ∧ leadingUint .data kvs = true ∧
    firstValue .data kvs = none

/-- A body is a map with a first `Data` entry and only non-negative numbers in front. -/
def HasData (mp : Codec) (body : List UInt8) (val : Object) : Prop :=
  ∃ kvs offset, mp.unpack body = some (.map kvs, offset) ∧ leadingUint .data kvs = true ∧
    firstValue .data kvs = some val

variable {mp : Codec} {convert : Object → τ → Except τ τ} {f : IprotoFrame (List UInt8)}

theorem asInto_of_noData (h : f.isError = false) (hdata : NoData mp f.body) (v : τ) :
    asInto mp convert f v = .error (.terminate, v) := by
  obtain ⟨kvs, offset, hunpack, hlead, hfirst⟩ := hdata
  rw [asInto, h, if_neg Bool.false_ne_true, hunpack]
  dsimp only
  rw [findData_eq, if_pos hlead, hfirst]
  rfl

theorem asInto_of_hasData (h : f.isError = false) {val : Object} (hdata : HasData mp f.body val)
    (v : τ) : asInto mp convert f v = (convert val v).mapError (.typeError, ·) := by
  obtain ⟨kvs, offset, hunpack, hlead, hfirst⟩ := hdata
  rw [asInto, h, if_neg Bool.false_ne_true, hunpack]
  dsimp only
  rw [findData_eq, if_pos hlead, hfirst]
  rfl

/-- In any other body an exception is thrown. -/
theorem asInto_of_not_hasData (h : f.isError = false) (hnone : ¬ NoData mp f.body)
    (hdata : ∀ val, ¬ HasData mp f.body val) (v : τ) :
    asInto mp convert f v = .error (.unpackError, v) ∨
      asInto mp convert f v = .error (.typeError, v) := by
  rw [asInto, h, if_neg Bool.false_ne_true]
  rcases hunpack : mp.unpack f.body with _ | ⟨object, offset⟩
  · exact Or.inl rfl
  · apply Or.inr
    cases object with
    | map kvs =>
        dsimp only
        rw [findData_eq]
        cases hlead : leadingUint .data kvs with
        | false => rfl
        | true =>
            exfalso
            cases hfirst : firstValue .data kvs with
            | none => exact hnone ⟨kvs, offset, hunpack, hlead, hfirst⟩
            | some val => exact hdata val ⟨kvs, offset, hunpack, hlead, hfirst⟩
    | _ => rfl

theorem HasData.unique {val val' : Object} (h : HasData mp f.body val)
    (h' : HasData mp f.body val') : val = val' := by
  obtain ⟨kvs, offset, hunpack, -, hfirst⟩ := h
  obtain ⟨kvs', offset', hunpack', -, hfirst'⟩ := h'
  cases hunpack.symm.trans hunpack'
  exact Option.some.inj (hfirst.symm.trans hfirst')

/-! ### Agreement -/

section

variable {ε : Type} (v : τ) (ec : ErrorCode)

theorem agrees_ok_iff (t : τ) :
    Agrees (.ok t : Except ε τ) (noexcept (catchInto ec (.ok t))) ↔ ec.failed = false := by
  constructor
  · rintro ⟨t', ec', ⟨⟩, hec, -⟩
    by_contra h
    obtain ⟨e, he⟩ := hec.mp (eq_true_of_ne_false h)
    cases he
  · intro h
    refine ⟨t, ec, rfl, ?_, ?_⟩
    · rw [h]
      refine iff_of_false Bool.false_ne_true ?_
      rintro ⟨e, ⟨⟩⟩
    · rintro _ ⟨⟩
      rfl

theorem not_agrees_terminate (e : ε) :
    ¬ Agrees (.error e) (noexcept (catchInto ec (.error (.terminate, v)))) := by
  rintro ⟨t, ec', ⟨⟩, -⟩

theorem agrees_typeError (e : ε) :
    Agrees (.error e) (noexcept (catchInto ec (.error (.typeError, v)))) :=
  ⟨v, _, rfl, iff_of_true rfl ⟨_, rfl⟩, fun _ h ↦ nomatch h⟩

theorem agrees_unpackError (e : ε) :
    Agrees (.error e) (noexcept (catchInto ec (.error (.unpackError, v)))) :=
  ⟨v, _, rfl, iff_of_true rfl ⟨_, rfl⟩, fun _ h ↦ nomatch h⟩

/-- The `catch` clauses around `as` agree with it unless the assertion fails, or the error
code is left over from an earlier call.  What the caller sees of an exception, and the tuple
that is left, do not matter. -/
theorem agrees_as_iff (h : f.isError = false) (thrown : Exn × τ → ε) (left : τ → τ) :
    Agrees ((asInto mp convert f v).mapError thrown)
        (noexcept (catchInto ec ((asInto mp convert f v).mapError (Prod.map id left)))) ↔
      ¬ NoData mp f.body ∧
        (ec.failed = true → ∀ val, HasData mp f.body val → ∃ w, convert val v = .error w) := by
  by_cases hnone : NoData mp f.body
  · rw [asInto_of_noData h hnone]
    exact iff_of_false (not_agrees_terminate _ ec _) fun hand ↦ hand.1 hnone
  by_cases hdata : ∀ val, ¬ HasData mp f.body val
  · refine iff_of_true ?_ ⟨hnone, fun _ val hval ↦ absurd hval (hdata val)⟩
    rcases asInto_of_not_hasData h hnone hdata v with has | has
    · rw [has]
      exact agrees_unpackError _ ec _
    · rw [has]
      exact agrees_typeError _ ec _
  · push Not at hdata
    obtain ⟨val, hval⟩ := hdata
    rw [asInto_of_hasData h hval]
    cases hconvert : convert val v with
    | error w =>
        refine iff_of_true (agrees_typeError _ ec _) ⟨hnone, fun _ val' hval' ↦ ⟨w, ?_⟩⟩
        rw [← hval.unique hval', hconvert]
    | ok t =>
        refine (agrees_ok_iff ec t).trans ⟨fun hec ↦ ⟨hnone, fun hfailed ↦ ?_⟩, ?_⟩
        · cases hec.symm.trans hfailed
        · rintro ⟨-, hall⟩
          by_contra hfailed
          obtain ⟨w, hw⟩ := hall (eq_true_of_ne_false hfailed) val hval
          cases hconvert.symm.trans hw

theorem agrees_asEc_iff (h : f.isError = false) :
    Agrees (as mp convert v f) (asEc mp convert v f ec) ↔
      ¬ NoData mp f.body ∧
        (ec.failed = true → ∀ val, HasData mp f.body val → ∃ w, convert val v = .error w) := by
  have hasEc : asEc mp convert v f ec = noexcept (catchInto ec
      ((asInto mp convert f v).mapError (Prod.map id fun _ ↦ v))) := by
    rw [asEc, h, as]
    cases asInto mp convert f v <;> rfl
  rw [hasEc, as]
  exact agrees_as_iff v ec h _ _

theorem agrees_asIntoEc_iff (h : f.isError = false) :
    Agrees (asInto mp convert f v) (asIntoEc mp convert f v ec) ↔
      ¬ NoData mp f.body ∧
        (ec.failed = true → ∀ val, HasData mp f.body val → ∃ w, convert val v = .error w) := by
  have hid (r : Except (Exn × τ) τ) : r.mapError id = r := by cases r <;> rfl
  have hagrees := @agrees_as_iff τ mp convert f _ v ec h id id
  rw [Prod.map_id, hid] at hagrees
  rw [asIntoEc, h]
  exact hagrees

end

end

/-- The overloads agree on a response if and only if it has data or is malformed, and the
error code was clear or the data cannot be converted. -/
theorem decodersAgree_iff {τ : Type} (mp : Codec) (convert : Object → τ → Except τ τ)
    (default v : τ) (ec : ErrorCode) (f : IprotoFrame (List UInt8)) (h : f.isError = false) :
    DecodersAgree mp convert default v ec f ↔
      ¬ NoData mp f.body ∧ (ec.failed = true → ∀ val, HasData mp f.body val →
        (∃ w, convert val default = .error w) ∧ ∃ w, convert val v = .error w) := by
  constructor
  · rintro ⟨hagree, hagree'⟩
    rw [agrees_asEc_iff default ec h] at hagree
    rw [agrees_asIntoEc_iff v ec h] at hagree'
    refine ⟨hagree.1, fun hec val hval ↦ ⟨?_, ?_⟩⟩
    · exact hagree.2 hec val hval
    · exact hagree'.2 hec val hval
  · rintro ⟨hnone, hall⟩
    constructor
    · rw [agrees_asEc_iff default ec h]
      exact ⟨hnone, fun hec val hval ↦ (hall hec val hval).1⟩
    · rw [agrees_asIntoEc_iff v ec h]
      exact ⟨hnone, fun hec val hval ↦ (hall hec val hval).2⟩

/-- The adaptor of a tuple with one number. -/
def oneNumber : Object → MpUint → Except MpUint MpUint
  | .array (.uint n :: _), _ => .ok n
  | .array [], v => .ok v
  | _, v => .error v

/-- A response that is no error. -/
def reply (body : List UInt8) : IprotoFrame (List UInt8) where
  header := { requestType := RequestType.ok.value }
  body := body

/-- A response with the data `[7]`, and an error code that is clear. -/
theorem decodersAgree_seven :
    DecodersAgree .reference oneNumber 0 5 {} (reply [0x81, 0x30, 0x91, 0x07]) := by
  refine (decodersAgree_iff .reference oneNumber 0 5 {} (reply [0x81, 0x30, 0x91, 0x07])
    (by decide)).mpr ⟨?_, fun hec ↦ absurd hec (by decide)⟩
  rintro ⟨kvs, offset, hunpack, -, hfirst⟩
  have hkvs : Codec.reference.unpack [0x81, 0x30, 0x91, 0x07] =
      some (.map [(.uint 0x30, .array [.uint 7])], 4) := rfl
  cases hkvs.symm.trans hunpack
  cases hfirst

/-- The same response with the error code of an earlier call, which is still set after a
call that went well; and a response without data, which ends the process. -/
theorem decoders_disagree :
    (asEc .reference oneNumber 0 (reply [0x81, 0x30, 0x91, 0x07]) Errc.protocolError.code =
        .ok (7, Errc.protocolError.code) ∧
      ¬ DecodersAgree .reference oneNumber 0 5 Errc.protocolError.code
        (reply [0x81, 0x30, 0x91, 0x07])) ∧
    (asEc .reference oneNumber 0 (reply [0x80]) {} = .error .terminate ∧
      ¬ DecodersAgree .reference oneNumber 0 5 {} (reply [0x80])) := by
  refine ⟨⟨rfl, ?_⟩, rfl, ?_⟩
  · rintro ⟨⟨t, ec, ⟨⟩, hec, -⟩, -⟩
    obtain ⟨e, ⟨⟩⟩ := hec.mp rfl
  · rintro ⟨⟨t, ec, ⟨⟩, -⟩, -⟩

end IprotoFrame

end Tntpp
