import LibreDarwin.Common.Fields
import LibreDarwin.Frontend.Model.State

/-!
# The identity a card was read for

`toIdentityGroupFields`, `toIdentityResult` and `emitGroup`: the groups of
a reading, one event each while the card is read, and all of them in the
result. Photos are left out of both. A `std::map` is by key, and `emplace`
keeps the first value.
-/

namespace LibreDarwin

namespace SocketOperationChannel

open Wire
open Frontend (OpId)
open Std (ExtTreeMap)

inductive FieldType
  | text
  | date
  | binary
  | photo
  deriving DecidableEq, Repr

structure FieldSnapshot where
  fieldKey : String
  labelKey : String
  labelFallback : String
  type : FieldType
  textValue : String
  binaryValue : Bytes
  deriving DecidableEq, Repr

structure GroupSnapshot where
  groupKey : String
  fields : List FieldSnapshot
  deriving DecidableEq, Repr

structure CardReadSnapshot where
  groups : List GroupSnapshot
  deriving DecidableEq, Repr

inductive FieldValue
  | text (value : String)
  | binary (value : Bytes)
  deriving DecidableEq, Repr

/-- `IdentityField`. -/
structure IdentityField where
  labelKey : String
  labelFallback : String
  type : String
  value : FieldValue
  deriving DecidableEq, Repr

abbrev GroupFields := ExtTreeMap String IdentityField

/-- `IdentityResult::fields`. -/
abbrev IdentityFields := ExtTreeMap String GroupFields

def fieldTypeName : FieldType → String
  | .text => "text"
  | .date => "date"
  | .binary => "binary"
  | .photo => "binary"

def identityField (f : FieldSnapshot) : IdentityField where
  labelKey := f.labelKey
  labelFallback := f.labelFallback
  type := fieldTypeName f.type
  value := if f.type = .binary then .binary f.binaryValue else .text f.textValue

/-- `toIdentityGroupFields`: a photo is skipped. -/
def toIdentityGroupFields (group : GroupSnapshot) : GroupFields :=
  ofFields (group.fields.map fun f =>
    (f.fieldKey, if f.type = .photo then none else some (identityField f)))

/-- `toIdentityResult`: a group without fields is skipped. -/
def toIdentityResult (snap : CardReadSnapshot) : IdentityFields :=
  ofFields (snap.groups.map fun group =>
    (group.groupKey,
      if (toIdentityGroupFields group).isEmpty then none else some (toIdentityGroupFields group)))

structure OpIdentityGroup where
  op : OpId
  groupKey : String
  fields : GroupFields

/-- `emitGroup`. -/
def emitGroup (op : OpId) (group : GroupSnapshot) : OpIdentityGroup where
  op := op
  groupKey := group.groupKey
  fields := toIdentityGroupFields group

end SocketOperationChannel

end LibreDarwin
