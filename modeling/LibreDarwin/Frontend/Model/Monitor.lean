import LibreDarwin.Transport.Model.Presence

/-!
# The card monitor

What the monitor thread tells the frontend, and what it is promised to
keep to: an id is used once; a card is inserted in a reader that is there
and empty; a reader leaves after its card. `Bench` is the picture a list
of such events leaves, `Valid` that each event was allowed where it
stands.
-/

namespace LibreDarwin

namespace Frontend

open Wire Transport

/-- The registry's observers, one constructor each. -/
inductive MonitorEvent
  | readerPublished (reader : CoreReader)
  | cardPublished (card : CoreCard)
  | withdrawn (object : ObjectId)
  | readerPropertiesChanged (reader : ObjectId) (delta : PropertyDelta)
  | readerRelabelled (reader : CoreReader)
  deriving DecidableEq, Repr

/-- The readers that are there, and the cards with the reader each is
in. -/
structure Bench where
  readers : List ObjectId
  cards : List (ObjectId × ObjectId)
  used : List ObjectId
  deriving DecidableEq, Repr

namespace Bench

def empty : Bench := ⟨[], [], []⟩

def after (b : Bench) : MonitorEvent → Bench
  | .readerPublished reader =>
    { b with readers := reader.id :: b.readers, used := reader.id :: b.used }
  | .cardPublished card =>
    { b with cards := (card.id, card.reader) :: b.cards, used := card.id :: b.used }
  | .withdrawn object =>
    { b with readers := b.readers.filter fun r => r ≠ object
             cards := b.cards.filter fun e => e.1 ≠ object }
  | .readerPropertiesChanged _ _ => b
  | .readerRelabelled _ => b

/-- **The monitor's promise**, event by event. -/
def Allows (b : Bench) : MonitorEvent → Prop
  | .readerPublished reader => reader.id ∉ b.used
  | .cardPublished card =>
    card.id ∉ b.used ∧ card.reader ∈ b.readers ∧ ∀ e ∈ b.cards, e.2 ≠ card.reader
  | .withdrawn object =>
    (∃ e ∈ b.cards, e.1 = object) ∨ object ∈ b.readers ∧ ∀ e ∈ b.cards, e.2 ≠ object
  | .readerPropertiesChanged _ _ => True
  | .readerRelabelled _ => True

instance (b : Bench) : DecidablePred b.Allows := fun
  | .readerPublished _ => inferInstanceAs (Decidable (_ ∉ _))
  | .cardPublished _ => inferInstanceAs (Decidable (_ ∧ _ ∧ _))
  | .withdrawn _ => inferInstanceAs (Decidable (_ ∨ _))
  | .readerPropertiesChanged _ _ => inferInstanceAs (Decidable True)
  | .readerRelabelled _ => inferInstanceAs (Decidable True)

/-- The picture a list of events leaves. -/
def of (events : List MonitorEvent) : Bench := events.foldl after empty

end Bench

/-- Each event was allowed where it stands. -/
def Valid (events : List MonitorEvent) : Prop :=
  ∀ a e b, events = a ++ e :: b → (Bench.of a).Allows e

end Frontend

end LibreDarwin
