import LibreDarwin.Wire.Model.Cbor

/-!
# A CBOR codec

The agent library's codec is a parameter of this development. This one is
what the results about that parameter are tried on: the definite-length
encoding, each head in its shortest form. The decoder's fuel is the number
of bytes it may still open a value at.
-/

namespace LibreDarwin

namespace Wire

namespace Codec

/-- The `n` low bytes of a number, the highest first. -/
def bigEndian (n value : ℕ) : Bytes :=
  (List.range n).reverse.map fun i => (value / 256 ^ i % 256).toUInt8

def ofBigEndian (b : Bytes) : ℕ := b.foldl (fun acc byte => 256 * acc + byte.toNat) 0

/-- A head: the major type, and its argument in the fewest bytes. -/
def head (major arg : ℕ) : Bytes :=
  if arg < 24 then [(32 * major + arg).toUInt8]
  else if arg < 2 ^ 8 then (32 * major + 24).toUInt8 :: bigEndian 1 arg
  else if arg < 2 ^ 16 then (32 * major + 25).toUInt8 :: bigEndian 2 arg
  else if arg < 2 ^ 32 then (32 * major + 26).toUInt8 :: bigEndian 4 arg
  else (32 * major + 27).toUInt8 :: bigEndian 8 arg

def ofText (s : String) : Bytes := s.toList.map fun c => c.toNat.toUInt8

def toText (b : Bytes) : String := String.ofList (b.map fun byte => Char.ofNat byte.toNat)

mutual

def encodeValue : CborValue → Bytes
  | .uint n => head 0 n.toNat
  | .nint n => head 1 n.toNat
  | .bytes b => head 2 b.length ++ b
  | .text s => head 3 (ofText s).length ++ ofText s
  | .array items => head 4 items.length ++ encodeItems items
  | .map entries => head 5 entries.length ++ encodeEntries entries
  | .bool b => [if b then 0xf5 else 0xf4]
  | .other b => b

def encodeItems : List CborValue → Bytes
  | [] => []
  | item :: items => encodeValue item ++ encodeItems items

def encodeEntries : List (String × CborValue) → Bytes
  | [] => []
  | (k, value) :: entries =>
    encodeValue (.text k) ++ encodeValue value ++ encodeEntries entries

end

/-- The first `n` bytes, and the rest. -/
def take (n : ℕ) (b : Bytes) : Option (Bytes × Bytes) :=
  if n ≤ b.length then some (b.splitAt n) else none

def readHead : Bytes → Option (ℕ × ℕ × Bytes)
  | [] => none
  | first :: rest =>
    let major := first.toNat / 32
    let arg := first.toNat % 32
    if arg < 24 then some (major, arg, rest)
    else if arg < 28 then do
      let (b, rest) ← take (2 ^ (arg - 24)) rest
      some (major, ofBigEndian b, rest)
    else none

mutual

def decodeValue : ℕ → Bytes → Option (CborValue × Bytes)
  | 0, _ => none
  | fuel + 1, b => do
    let (major, arg, rest) ← readHead b
    match major with
    | 0 => some (.uint arg.toUInt64, rest)
    | 1 => some (.nint arg.toUInt64, rest)
    | 2 => do
      let (content, rest) ← take arg rest
      some (.bytes content, rest)
    | 3 => do
      let (content, rest) ← take arg rest
      some (.text (toText content), rest)
    | 4 => do
      let (items, rest) ← decodeItems fuel arg rest
      some (.array items, rest)
    | 5 => do
      let (entries, rest) ← decodeEntries fuel arg rest
      some (.map entries, rest)
    | _ =>
      if b.head? = some 0xf5 then some (.bool true, rest)
      else if b.head? = some 0xf4 then some (.bool false, rest)
      else some (.other (b.take (b.length - rest.length)), rest)

def decodeItems : ℕ → ℕ → Bytes → Option (List CborValue × Bytes)
  | _, 0, b => some ([], b)
  | 0, _ + 1, _ => none
  | fuel + 1, n + 1, b => do
    let (item, b) ← decodeValue fuel b
    let (items, b) ← decodeItems fuel n b
    some (item :: items, b)

def decodeEntries : ℕ → ℕ → Bytes → Option (List (String × CborValue) × Bytes)
  | _, 0, b => some ([], b)
  | 0, _ + 1, _ => none
  | fuel + 1, n + 1, b => do
    match ← decodeValue fuel b with
    | (.text k, b) => do
      let (value, b) ← decodeValue fuel b
      let (entries, b) ← decodeEntries fuel n b
      some ((k, value) :: entries, b)
    | _ => none

end

/-- One value and nothing after it. -/
def decode (b : Bytes) : Option CborValue :=
  match decodeValue (b.length + 1) b with
  | some (value, []) => some value
  | _ => none

end Codec

end Wire

end LibreDarwin
