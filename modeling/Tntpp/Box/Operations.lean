import Tntpp.Connector.Operations
import Tntpp.Detail.ErrorCode

/-!
# The requests of a box

`Box` builds its messages in two stages: the caller's thread writes the header and
the entries that are known, and a coroutine appends the number of the space once it
has looked it up.  A lookup that fails completes the operation with its error, and
nothing is sent.
-/

namespace Tntpp

open MsgPack (Object Codec)

/-- `SpaceVariant`: a space or an index, as the caller names it. -/
inductive SpaceVariant where
  /-- Not given. -/
  | monostate
  /-- By name. -/
  | name (s : List UInt8)
  /-- By number. -/
  | id (n : MpUint)
deriving DecidableEq, Repr

namespace Box

/-- `get_space_index`.  There is no table of names yet, and every name is number
zero. -/
def getSpaceIndex : SpaceVariant → ErrorCode × SpaceId
  | .monostate => (Errc.invalidArgument.code, 0)
  | .id n => ({}, n)
  | .name _ => ({}, 0)

/-- The operations with one field besides the space. -/
def spaceRequest (mp : Codec) (id : OperationId) (type : RequestType) (count : Nat)
    (field : FieldType) (data : Object) (space : SpaceVariant) : Except ErrorCode RequestPacker :=
  let packer := beginRequest mp id type count [(field, data)]
  let (ec, spaceIndex) := getSpaceIndex space
  if ec.failed then .error ec
  else .ok (packer.packMapEntry mp .spaceId (.uint spaceIndex)).finalize

/-- `insert`. -/
def insert (mp : Codec) (id : OperationId) (space : SpaceVariant) (tuple : Object) :
    Except ErrorCode RequestPacker :=
  spaceRequest mp id .insert 2 .tuple tuple space

/-- `replace`. -/
def replace (mp : Codec) (id : OperationId) (space : SpaceVariant) (tuple : Object) :
    Except ErrorCode RequestPacker :=
  spaceRequest mp id .replace 2 .tuple tuple space

/-- `remove(space, key)`. -/
def remove (mp : Codec) (id : OperationId) (space : SpaceVariant) (key : Object) :
    Except ErrorCode RequestPacker :=
  spaceRequest mp id .delete 2 .key key space

end Box

/-! ## Selects -/

/-- `SelectIterator`. -/
inductive SelectIterator where
  | eq
  | req
  | all
  | lt
  | te
  | ge
  | gt
  | bitsAllSet
  | bitsAnySet
  | bitsAllNotSet
  | overlaps
  | neighbor
deriving DecidableEq, Repr

/-- The number of an iterator. -/
def SelectIterator.value : SelectIterator → MpUint
  | eq => 0
  | req => 1
  | all => 2
  | lt => 3
  | te => 4
  | ge => 5
  | gt => 6
  | bitsAllSet => 7
  | bitsAnySet => 8
  | bitsAllNotSet => 9
  | overlaps => 10
  | neighbor => 11

/-- `SelectRequest`, which is also the whole state of a `SelectBuilder`. -/
structure SelectRequest where
  /-- The identifier of the request. -/
  sync : MpUint
  /-- The space. -/
  space : SpaceVariant
  /-- The index. -/
  index : SpaceVariant := .monostate
  /-- The message so far. -/
  packer : RequestPacker

/-- The calls a `SelectBuilder` takes. -/
inductive SelectOption where
  | index (index : SpaceVariant)
  | limit (value : MpUint)
  | offset (value : MpUint)
  | iterator (it : SelectIterator)
  | key (key : Object)
  | afterPosition (pos : List UInt8)
  | afterTuple (pos : Object)
  | fetchPosition (val : Bool)

namespace SelectBuilder

/-- The constructors; without an index the second one's is not given. -/
def new (mp : Codec) (space index : SpaceVariant) (requestId : MpUint) : SelectRequest where
  sync := requestId
  space := space
  index := index
  packer := (RequestPacker.new.packHeader mp (requestHeader requestId .select)).beginUnsizedMap

/-- An entry of the body. -/
def entry (mp : Codec) (field : FieldType) (data : Object) (r : SelectRequest) : SelectRequest :=
  { r with packer := r.packer.packMapEntry mp field data }

/-- One call. -/
def apply (mp : Codec) (r : SelectRequest) : SelectOption → SelectRequest
  | .index index => { r with index }
  | .limit value => entry mp .limit (.uint value) r
  | .offset value => entry mp .offset (.uint value) r
  | .iterator it => entry mp .iterator (.uint it.value) r
  | .key key => entry mp .key key r
  | .afterPosition pos => entry mp .afterPosition (.str pos) r
  | .afterTuple pos => entry mp .afterTuple pos r
  | .fetchPosition val => entry mp .fetchPosition (.bool val) r

/-- A builder after a number of calls. -/
def build (mp : Codec) (space index : SpaceVariant) (requestId : MpUint)
    (options : List SelectOption) : SelectRequest :=
  options.foldl (apply mp) (new mp space index requestId)

end SelectBuilder

namespace Box

/-- `select`; `none` is the failed assertion of `finalize_map`. -/
def select (mp : Codec) (r : SelectRequest) : Option (Except ErrorCode RequestPacker) :=
  let (ec, spaceIndex) := getSpaceIndex r.space
  if ec.failed then some (.error ec)
  else
    ((r.packer.packMapEntry mp .spaceId (.uint spaceIndex)).finalizeMap).map
      fun packer ↦ .ok packer.finalize

end Box

end Tntpp
