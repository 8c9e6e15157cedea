import Mathlib
import LibreDarwin.Wire.Model.Messages

/-!
# The published presence

What the transport knows of readers and cards, keyed by wire handle, and
the six entry points that change it. Each returns the new presence and the
event it broadcasts, if any. `std::map` is `ExtTreeMap`: the same order,
and equality that forgets the tree.
-/

namespace LibreDarwin

namespace Transport

open Wire Std

/-- A reader as the core hands it over. -/
structure CoreReader where
  id : ObjectId
  name : String
  hasCard : Bool
  card : Option ObjectId
  model : String
  iface : ReaderInterface
  deriving DecidableEq, Repr

/-- A card as the core hands it over; an empty string is a value not known
yet. -/
structure CoreCard where
  id : ObjectId
  reader : ObjectId
  capabilities : ℕ
  preReadAuth : PreReadAuth
  cardType : String
  atrHex : String
  deriving DecidableEq, Repr

structure PropertyDelta where
  hasCard : Bool
  card : Option ObjectId
  deriving DecidableEq, Repr

/-- What a request that names a card is routed by. -/
structure CardRouting where
  cardId : ObjectId
  readerId : ObjectId
  readerName : String
  cardKey : String
  caps : ℕ
  preAuth : PreReadAuth
  deriving DecidableEq, Repr

/-- Every published reader's name and, at the same index, the key of the
card it holds. -/
structure PresenceRoster where
  readerNames : List String
  cardKeys : List String
  deriving DecidableEq, Repr

structure Presence where
  readers : ExtTreeMap Handle ReaderState
  cards : ExtTreeMap Handle CardState
  cardRoutings : ExtTreeMap Handle CardRouting
  idToHandle : ExtTreeMap ObjectId Handle
  handleToId : ExtTreeMap Handle ObjectId
  nextHandle : ℕ
  roster : PresenceRoster

namespace Presence

def empty : Presence := ⟨∅, ∅, ∅, ∅, ∅, 1, ⟨[], []⟩⟩

/-- `std::format("obj/{}", n)`. -/
def objHandle (n : ℕ) : Handle := "obj/" ++ n.repr

/-- `handleFor`: the object's handle, a new one when it has none. -/
def handleFor (p : Presence) (id : ObjectId) : Handle × Presence :=
  match p.idToHandle[id]? with
  | some handle => (handle, p)
  | none =>
    (objHandle p.nextHandle,
      { p with nextHandle := p.nextHandle + 1,
               idToHandle := p.idToHandle.insert id (objHandle p.nextHandle),
               handleToId := p.handleToId.insert (objHandle p.nextHandle) id })

/-- `handleFor` where the source asks `valid()` first. -/
def handleFor? (p : Presence) : Option ObjectId → Option Handle × Presence
  | none => (none, p)
  | some id => ((p.handleFor id).1, (p.handleFor id).2)

/-- The key of the card that sits in a reader: the first card that names
it. -/
def cardKeyIn (p : Presence) (reader : Handle) : String :=
  match p.cards.toList.find? fun c => c.2.reader = reader with
  | none => ""
  | some c => (p.cardRoutings[c.1]?.map CardRouting.cardKey).getD ""

/-- `rebuildRoster`. -/
def rebuildRoster (p : Presence) : Presence :=
  { p with roster :=
    { readerNames := p.readers.toList.map fun r => r.2.name
      cardKeys := p.readers.toList.map fun r => p.cardKeyIn r.1 } }

/-- `publishReader`. -/
def publishReader (p : Presence) (reader : CoreReader) : Presence × Option Event :=
  let (handle, p) := p.handleFor reader.id
  let (card, p) := p.handleFor? reader.card
  let r : ReaderState := ⟨handle, reader.name, reader.hasCard, card, reader.model, reader.iface⟩
  ({ p with readers := p.readers.insert handle r }.rebuildRoster, some (.readerAdded r))

/-- The interface name a reader's property push carries. -/
def readerIface : String := "org.librescrs.Agent.Reader1"

/-- And a card's. -/
def cardIface : String := "org.librescrs.Agent.Card1"

/-- The published reader an id names, with its handle. -/
def readerOf (p : Presence) (id : ObjectId) : Option (Handle × ReaderState) :=
  p.idToHandle[id]?.bind fun handle => p.readers[handle]?.map fun r => (handle, r)

/-- `relabelReader`: model and interface travel together, and nothing is
sent when neither changed. -/
def relabelReader (token : ReaderInterface → String) (p : Presence) (reader : CoreReader) :
    Presence × Option Event :=
  match p.readerOf reader.id with
  | none => (p, none)
  | some (handle, r) =>
    if r.model = reader.model ∧ r.iface = reader.iface then (p, none)
    else
      ({ p with
          readers := p.readers.insert handle { r with model := reader.model, iface := reader.iface } },
        some (.propertyChanged handle readerIface
          [("Interface", .text (token reader.iface)), ("Model", .text reader.model)]))

/-- An empty string of the core is an absent field of the wire. -/
def absentIfEmpty (s : String) : Option String := if s.isEmpty then none else some s

/-- `publishCard`. -/
def publishCard (p : Presence) (card : CoreCard) : Presence × Option Event :=
  let (handle, p) := p.handleFor card.id
  let (reader, p) := p.handleFor card.reader
  let c : CardState :=
    ⟨handle, reader, card.capabilities, card.preReadAuth, absentIfEmpty card.cardType,
      absentIfEmpty card.atrHex⟩
  let routing : CardRouting :=
    { cardId := card.id
      readerId := card.reader
      readerName := (p.readers[reader]?.map ReaderState.name).getD ""
      cardKey := card.id.repr
      caps := card.capabilities
      preAuth := card.preReadAuth }
  ({ p with cards := p.cards.insert handle c
            cardRoutings := p.cardRoutings.insert handle routing }.rebuildRoster,
    some (.cardAdded c))

/-- `withdraw`: a reader, or else a card, and in any case the id and its
handle. -/
def withdraw (p : Presence) (object : ObjectId) : Presence × Option Event :=
  match p.idToHandle[object]? with
  | none => (p, none)
  | some handle =>
    let forget (p : Presence) : Presence :=
      { p with idToHandle := p.idToHandle.erase object
               handleToId := p.handleToId.erase handle }.rebuildRoster
    if handle ∈ p.readers then
      (forget { p with readers := p.readers.erase handle }, some (.readerRemoved handle))
    else if handle ∈ p.cards then
      (forget { p with cards := p.cards.erase handle
                       cardRoutings := p.cardRoutings.erase handle },
        some (.cardRemoved handle))
    else (forget p, none)

/-- The keys of a `HasCard` push: `Card` travels when there is one. The
source keeps them in a map, so they are in key order. -/
def hasCardProps (hasCard : Bool) (card : Option Handle) : List (String × PropValue) :=
  (card.map fun c => ("Card", PropValue.text c)).toList ++ [("HasCard", .bool hasCard)]

/-- `updateProperties`. -/
def updateProperties (p : Presence) (reader : ObjectId) (delta : PropertyDelta) :
    Presence × Option Event :=
  match p.readerOf reader with
  | none => (p, none)
  | some (handle, r) =>
    let (card, p) := p.handleFor? (if delta.hasCard then delta.card else none)
    ({ p with readers := p.readers.insert handle { r with hasCard := delta.hasCard, card := card } },
      some (.propertyChanged handle readerIface (hasCardProps delta.hasCard card)))

/-- `updateCardType`: nothing is sent when the value is the same. -/
def updateCardType (p : Presence) (handle : Handle) (cardType : String) :
    Presence × Option Event :=
  match p.cards[handle]? with
  | none => (p, none)
  | some c =>
    if c.cardType = some cardType then (p, none)
    else
      ({ p with cards := p.cards.insert handle { c with cardType := some cardType } },
        some (.propertyChanged handle cardIface [("CardType", .text cardType)]))

/-- A call of one of the six entry points. -/
inductive Call
  | publishReader (reader : CoreReader)
  | relabelReader (reader : CoreReader)
  | publishCard (card : CoreCard)
  | withdraw (object : ObjectId)
  | updateProperties (reader : ObjectId) (delta : PropertyDelta)
  | updateCardType (handle : Handle) (cardType : String)
  deriving DecidableEq, Repr

/-- The presence after a call, and the event it broadcasts. -/
def after (token : ReaderInterface → String) (p : Presence) : Call → Presence × Option Event
  | .publishReader reader => p.publishReader reader
  | .relabelReader reader => p.relabelReader token reader
  | .publishCard card => p.publishCard card
  | .withdraw object => p.withdraw object
  | .updateProperties reader delta => p.updateProperties reader delta
  | .updateCardType handle cardType => p.updateCardType handle cardType

/-- `currentState`. -/
def currentState (p : Presence) : StateReply :=
  ⟨p.readers.toList.map Prod.snd, p.cards.toList.map Prod.snd⟩

/-- `cardRouting`. -/
def cardRouting (p : Presence) (handle : Handle) : Option CardRouting := p.cardRoutings[handle]?

end Presence

end Transport

end LibreDarwin
