import LibreDarwin.Common.Fields
import LibreDarwin.Wire.Model.Messages

/-!
# CBOR values

The values the agent library's codec hands over and takes, and what the
accessors of `CborValue` answer. A `Map` is a `std::map` by key. Text is a
`String` with one character for each byte of the `std::string`: nothing
here looks inside one.
-/

namespace LibreDarwin

namespace Wire

open Std

/-- A CBOR value. `other` stands for the simple values and floats no
message of this repository carries. -/
inductive CborValue
  | uint (n : UInt64)
  | nint (n : UInt64)
  | bytes (b : Bytes)
  | text (s : String)
  | array (items : List CborValue)
  | map (entries : List (String × CborValue))
  | bool (b : Bool)
  | other (b : Bytes)
  deriving Repr

/-- `CborValue::Map`. -/
abbrev CborMap := ExtTreeMap String CborValue

namespace CborValue

/-- `CborValue(Map)`. -/
def ofMap (m : CborMap) : CborValue := .map m.toList

def asMap : CborValue → Option CborMap
  | .map entries => some (ExtTreeMap.ofList entries)
  | _ => none

def asText : CborValue → Option String
  | .text s => some s
  | _ => none

def asUInt : CborValue → Option UInt64
  | .uint n => some n
  | _ => none

def asBytes : CborValue → Option Bytes
  | .bytes b => some b
  | _ => none

def asArray : CborValue → Option (List CborValue)
  | .array items => some items
  | _ => none

/-! ### Comparison -/

mutual

def same : CborValue → CborValue → Bool
  | .uint a, .uint b => a = b
  | .nint a, .nint b => a = b
  | .bytes a, .bytes b => a = b
  | .text a, .text b => a = b
  | .array a, .array b => sameItems a b
  | .map a, .map b => sameEntries a b
  | .bool a, .bool b => a = b
  | .other a, .other b => a = b
  | _, _ => false

def sameItems : List CborValue → List CborValue → Bool
  | [], [] => true
  | a :: as, b :: bs => same a b && sameItems as bs
  | _, _ => false

def sameEntries : List (String × CborValue) → List (String × CborValue) → Bool
  | [], [] => true
  | (k, a) :: as, (l, b) :: bs => k = l && (same a b && sameEntries as bs)
  | _, _ => false

end

mutual

theorem same_iff : ∀ a b : CborValue, same a b ↔ a = b
  | .array a, b => by cases b <;> simp [same, sameItems_iff a]
  | .map a, b => by cases b <;> simp [same, sameEntries_iff a]
  | .uint _, b | .nint _, b | .bytes _, b | .text _, b | .bool _, b | .other _, b => by
    cases b <;> simp [same]

theorem sameItems_iff : ∀ a b : List CborValue, sameItems a b ↔ a = b
  | [], b => by cases b <;> simp [sameItems]
  | a :: as, b => by cases b <;> simp [sameItems, same_iff a, sameItems_iff as]

theorem sameEntries_iff : ∀ a b : List (String × CborValue), sameEntries a b ↔ a = b
  | [], b => by cases b <;> simp [sameEntries]
  | (_, a) :: as, b => by
    cases b <;> simp [sameEntries, same_iff a, sameEntries_iff as, Prod.ext_iff, and_assoc]

end

instance : DecidableEq CborValue := fun a b => decidable_of_iff _ (same_iff a b)

end CborValue

end Wire

end LibreDarwin
