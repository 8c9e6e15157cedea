import LibreDarwin.Transport.Model.Presence

/-!
# The reader-routing seams

What the core asks of the presence by a reader's handle: the card the
reader holds, under the key its operations are cached by, and that key
read back as the object it names. `presenceRoster` is the stored snapshot.
-/

namespace LibreDarwin

namespace Transport

open Wire

/-- `ULLONG_MAX`. -/
def ullongMax : ℕ := 2 ^ 64 - 1

/-- `isspace` in the C locale. -/
def isSpace (c : Char) : Bool := c = ' ' || (9 ≤ c.toNat && c.toNat ≤ 13)

/-- The number the leading digits spell, or `ULLONG_MAX` when it is out of
range. -/
def saturated (cs : List Char) : ℕ := min ullongMax (Nat.ofDigitChars 10 (cs.takeWhile Char.isDigit) 0)

/-- `strtoull` in base ten: leading blanks, a sign, digits. A negative
number is taken modulo 2^64. -/
def strtoull (s : String) : ℕ :=
  match s.toList.dropWhile isSpace with
  | '+' :: cs => saturated cs
  | '-' :: cs =>
    if ullongMax < Nat.ofDigitChars 10 (cs.takeWhile Char.isDigit) 0 then ullongMax
    else (2 ^ 64 - saturated cs) % 2 ^ 64
  | cs => saturated cs

structure ReaderCardInfo where
  readerId : ObjectId
  readerName : String
  cardKey : String
  deriving DecidableEq, Repr

namespace Presence

/-- `readerCard`: `cardKey` is empty when the reader holds no card, or one
that has no handle any more. -/
def readerCard (p : Presence) (readerHandle : Handle) : Option ReaderCardInfo :=
  match p.readers[readerHandle]? with
  | none => none
  | some r =>
    match p.handleToId[readerHandle]? with
    | none => none
    | some id =>
      some
        { readerId := id
          readerName := r.name
          cardKey := ((r.card.bind fun card => p.handleToId[card]?).map Nat.repr).getD "" }

/-- `makeResolveReaderCard`. -/
def resolveReaderCard (p : Presence) (readerHandle : Handle) : Option ReaderCardInfo :=
  match p.readerCard readerHandle with
  | none => none
  | some rc => if rc.cardKey.isEmpty then none else some rc

/-- `makeResolveCardKey`. -/
def resolveCardKey (p : Presence) (readerHandle : Handle) : Option ObjectId :=
  match p.readerCard readerHandle with
  | none => none
  | some rc => if rc.cardKey.isEmpty then none else some (strtoull rc.cardKey)

/-- `presenceRoster`. -/
def presenceRoster (p : Presence) : PresenceRoster := p.roster

/-- The presence a list of calls leaves. -/
def ofCalls (token : ReaderInterface → String) (calls : List Call) : Presence :=
  calls.foldl (fun p call => (p.after token call).1) empty

end Presence

end Transport

end LibreDarwin
