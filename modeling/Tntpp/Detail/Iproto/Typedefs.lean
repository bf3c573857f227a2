import Tntpp.Detail.ErrorCode

/-!
# The numbers of the protocol

Request types, field types and server errors, as `iproto_typedefs.h` declares
them.  Enumerations of the source are inductive types with a `value`; a cast into
one is a function with `Option` or the source's default, so that no number stands
for an enumerator it does not belong to.
-/

namespace Tntpp

/-- An unsigned integer of the wire format. -/
abbrev MpUint := UInt64

/-- Request identifiers; `Sync` on the wire. -/
abbrev OperationId := MpUint

/-- Space identifiers. -/
abbrev SpaceId := MpUint

/-- Index identifiers. -/
abbrev IndexId := MpUint

/-- A message cannot be more than `uint32::max()` bytes long. -/
abbrev SizeType := UInt32

/-- Request and response types. -/
inductive RequestType where
  | ok
  | chunk
  | typeErrorBegin
  | typeErrorEnd
  | select
  | insert
  | replace
  | update
  | delete
  | auth
  | eval
  | upsert
  | call
  | nop
  | ping
  | id
  | unknown
deriving DecidableEq, Repr

/-- The number of a request type. -/
def RequestType.value : RequestType → MpUint
  | ok => 0x00
  | chunk => 0x80
  | typeErrorBegin => 0x8000
  | typeErrorEnd => 0x8999
  | select => 0x01
  | insert => 0x02
  | replace => 0x03
  | update => 0x04
  | delete => 0x05
  | auth => 0x07
  | eval => 0x08
  | upsert => 0x09
  | call => 0x0a
  | nop => 0x0c
  | ping => 0x40
  | id => 0x49
  | unknown => 0xffffffffffffffff

/-- The response types that report a server error. -/
def isErrorReqType (type : MpUint) : Bool :=
  RequestType.typeErrorBegin.value ≤ type && type ≤ RequestType.typeErrorEnd.value

/-- The keys of headers and bodies. -/
inductive FieldType where
  | version
  | features
  | sync
  | schemaVersion
  | timestamp
  | spaceId
  | indexId
  | limit
  | offset
  | iterator
  | requestType
  | key
  | data
  | error24
  | streamId
  | tuple
  | functionName
  | username
  | expr
  | afterPosition
  | afterTuple
  | fetchPosition
deriving DecidableEq, Repr

/-- The number of a key.  `Error_24` has no value of its own in the source and
follows `Data`. -/
def FieldType.value : FieldType → MpUint
  | version => 0x54
  | features => 0x55
  | sync => 0x01
  | schemaVersion => 0x05
  | timestamp => 0x04
  | spaceId => 0x10
  | indexId => 0x11
  | limit => 0x12
  | offset => 0x13
  | iterator => 0x14
  | requestType => 0x00
  | key => 0x20
  | data => 0x30
  | error24 => 0x31
  | streamId => 0x0a
  | tuple => 0x21
  | functionName => 0x22
  | username => 0x23
  | expr => 0x27
  | afterPosition => 0x2e
  | afterTuple => 0x2f
  | fetchPosition => 0x1f

/-- The key with a number, if the client knows one. -/
def intToFieldType (type : MpUint) : Option FieldType :=
  if type = 0x54 then some .version
  else if type = 0x55 then some .features
  else if type = 0x01 then some .sync
  else if type = 0x05 then some .schemaVersion
  else if type = 0x04 then some .timestamp
  else if type = 0x10 then some .spaceId
  else if type = 0x11 then some .indexId
  else if type = 0x12 then some .limit
  else if type = 0x13 then some .offset
  else if type = 0x14 then some .iterator
  else if type = 0x00 then some .requestType
  else if type = 0x20 then some .key
  else if type = 0x30 then some .data
  else if type = 0x31 then some .error24
  else if type = 0x0a then some .streamId
  else if type = 0x21 then some .tuple
  else if type = 0x22 then some .functionName
  else if type = 0x23 then some .username
  else if type = 0x27 then some .expr
  else if type = 0x2e then some .afterPosition
  else if type = 0x2f then some .afterTuple
  else if type = 0x1f then some .fetchPosition
  else none

@[simp] theorem intToFieldType_value (f : FieldType) : intToFieldType f.value = some f := by
  cases f <;> decide

theorem eq_or_of_ite_eq_some {α : Type} {c : Prop} [Decidable c] {a b : α} {r : Option α}
    (h : (if c then some a else r) = some b) : c ∧ a = b ∨ r = some b := by
  by_cases hc : c
  · rw [if_pos hc] at h
    exact Or.inl ⟨hc, Option.some.inj h⟩
  · rw [if_neg hc] at h
    exact Or.inr h

theorem intToFieldType_eq_some_iff {type : MpUint} {f : FieldType} :
    intToFieldType type = some f ↔ type = f.value := by
  constructor
  · intro h
    unfold intToFieldType at h
    -- one test after the other
    iterate 22
      rcases eq_or_of_ite_eq_some h with ⟨hf, rfl⟩ | h
      · exact hf
    cases h
  · rintro rfl
    exact intToFieldType_value f

/-- Different keys have different numbers. -/
theorem FieldType.value_injective {f g : FieldType} (h : f.value = g.value) : f = g := by
  have := intToFieldType_value f
  rw [h, intToFieldType_value] at this
  exact (Option.some.inj this).symm

/-! ## Server errors -/

/-- An error number of the server.  The enumeration of the source has a fixed
underlying type, so every number in its range is a value of it. -/
structure TarantoolError where
  /-- The number. -/
  value : MpUint
deriving DecidableEq, Repr

namespace TarantoolError

/-- `Unknown`. -/
def unknown : TarantoolError := ⟨0⟩

/-- `FieldValueOutOfRange`, the last error the client knows. -/
def fieldValueOutOfRange : TarantoolError := ⟨280⟩

end TarantoolError

/-- The error with a number, or `Unknown` beyond the last one the client knows. -/
def intToTarantoolError (ec : MpUint) : TarantoolError :=
  if ec ≤ TarantoolError.fieldValueOutOfRange.value then ⟨ec⟩ else .unknown

end Tntpp
