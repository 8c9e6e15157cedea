import LibreDarwin.Common.Machine
import LibreDarwin.Frontend.Model.Monitor

/-!
# A card, from its insertion to its publication

The monitor thread posts what it sees to the loop. An inserted card waits
in `pendingCards` while a worker of its reader probes it; the worker posts
what it learned, and `applyCardResolution` publishes the card or asks
again later. The card-removed hook does not go through the loop: it runs
on the monitor thread and releases the power hold of the card's reader.

`cardResolution` is the machine of all of it. Its inputs are the threads'
moves, in any order: the monitor says something (`monitor`) or runs the
hook (`keyRemoved`), the loop runs the block at the head of its queue
(`run`) or one a timer brings (`fire`), a worker is done (`probed`). Beside
what the source keeps, the state has `ran`, the monitor's events the loop
has run, and `trace`, the calls and hooks in order.
-/

namespace LibreDarwin

namespace Frontend

open Wire Transport
open Std (ExtTreeMap)

/-- Why a session could not be opened, as far as anyone here asks. -/
inductive OpenError
  | sessionRefused
  | other
  deriving DecidableEq, Repr

/-- `detail::isRefusedSession`. -/
def isRefusedSession : OpenError → Bool
  | .sessionRefused => true
  | .other => false

/-- What an insertion probe learned. -/
structure CardProbe where
  capabilities : ℕ
  preReadAuth : PreReadAuth
  cardType : String
  failure : Option OpenError
  deriving DecidableEq, Repr

/-- **The agent library's half of the resolution**: whether a probe is to
be made again, after what delay, and what the attempts then are; and
whether a probed card's reader is to be held. -/
structure CardResolutionPolicy (Attempts : Type*) where
  attempts : Attempts
  retryAfter : (OpenError → Bool) → CardProbe → Attempts → Option ℕ × Attempts
  holdsReader : CardProbe → PresenceRoster → String → Bool

structure PendingCard (Attempts : Type*) where
  card : CoreCard
  attempts : Attempts

/-- A block posted to the loop. -/
inductive Job
  | observed (e : MonitorEvent)
  | applyCardResolution (card : CoreCard) (probe : CardProbe)
  | updateCardType (handle : Handle) (cardType : String)
  deriving DecidableEq, Repr

/-- The monitor's event a block brings. -/
def Job.event? : Job → Option MonitorEvent
  | .observed e => some e
  | _ => none

inductive Mark
  | call (call : Presence.Call)
  | keyRemoved (card : ObjectId)
  deriving DecidableEq, Repr

/-- The loop's state of the cards, the readers' workers with their hold
flags, and what is under way: blocks posted, in order; timers; probes with
the reader's name. -/
structure CardsState (Attempts : Type*) where
  readerNames : ExtTreeMap ObjectId String
  pendingCards : ExtTreeMap ObjectId (PendingCard Attempts)
  presence : Presence
  workers : List ObjectId
  held : List ObjectId
  posted : List Job
  timers : List CoreCard
  probes : List (CoreCard × String)
  ran : List MonitorEvent
  trace : List Mark

namespace CardsState

variable {Attempts : Type*} (P : CardResolutionPolicy Attempts)
variable (token : ReaderInterface → String) (s : CardsState Attempts)

/-- All the monitor has said, run or not. -/
def history : List MonitorEvent := s.ran ++ s.posted.filterMap Job.event?

/-- A call of one of the transport's entry points. -/
def publish (call : Presence.Call) : CardsState Attempts :=
  { s with presence := (s.presence.after token call).1
           trace := s.trace ++ [.call call] }

/-- `setReaderHold`, which does nothing for a reader without a worker. -/
def setReaderHold (reader : ObjectId) (hold : Bool) : CardsState Attempts :=
  if reader ∈ s.workers then
    { s with held := if hold then reader :: s.held else s.held.filter fun r => r ≠ reader }
  else s

/-- `removeReader`: the worker goes, and its hold flag with it. -/
def removeReader (reader : ObjectId) : CardsState Attempts :=
  { s with workers := s.workers.filter fun r => r ≠ reader
           held := s.held.filter fun r => r ≠ reader }

/-- The reader's name, or an empty one. -/
def readerName (reader : ObjectId) : String := s.readerNames[reader]?.getD ""

/-- `scheduleCardResolve`; `queued` is whether the worker's queue took the
probe. A refused one is asked again from a timer. -/
def scheduleCardResolve (card : CoreCard) (queued : Bool) : CardsState Attempts :=
  let attempts := (s.pendingCards[card.id]?.map PendingCard.attempts).getD P.attempts
  let s := { s with pendingCards := s.pendingCards.insert card.id ⟨card, attempts⟩ }
  if queued then
    { s with probes := s.probes ++ [(card, s.readerName card.reader)]
             workers := card.reader :: s.workers }
  else { s with timers := s.timers ++ [card] }

/-- The card as it is published. -/
def refined (card : CoreCard) (probe : CardProbe) : CoreCard :=
  ⟨card.id, card.reader, probe.capabilities, probe.preReadAuth, probe.cardType, card.atrHex⟩

/-- A resolution that publishes: the card is not pending any more. -/
def resolved (card : CoreCard) (probe : CardProbe) : CardsState Attempts :=
  { s with pendingCards := s.pendingCards.erase card.id }.publish token
    (.publishCard (refined card probe))

/-- `applyCardResolution`. -/
def applyCardResolution (card : CoreCard) (probe : CardProbe) : CardsState Attempts :=
  match s.pendingCards[card.id]? with
  | none => s
  | some pending =>
    match P.retryAfter isRefusedSession probe pending.attempts with
    | (some _, attempts) =>
      { s with pendingCards := s.pendingCards.insert card.id { pending with attempts := attempts }
               timers := s.timers ++ [card] }
    | (none, _) =>
      let s := s.resolved token card probe
      if P.holdsReader probe s.presence.roster card.id.repr then s.setReaderHold card.reader true
      else s

/-- The block of `onWithdrawn`. -/
def onWithdrawn (object : ObjectId) : CardsState Attempts :=
  let s := { s with pendingCards := s.pendingCards.erase object }
  let s :=
    if object ∈ s.readerNames then
      { s with readerNames := s.readerNames.erase object }.removeReader object
    else s
  s.publish token (.withdraw object)

/-- The blocks the observers post. -/
def observed (queued : Bool) : MonitorEvent → CardsState Attempts
  | .readerPublished reader =>
    { s with readerNames := s.readerNames.insert reader.id reader.name }.publish token
      (.publishReader reader)
  | .cardPublished card => s.scheduleCardResolve P card queued
  | .withdrawn object => s.onWithdrawn token object
  | .readerPropertiesChanged reader delta => s.publish token (.updateProperties reader delta)
  | .readerRelabelled reader => s.publish token (.relabelReader reader)

def runJob (queued : Bool) : Job → CardsState Attempts
  | .observed e => { s with ran := s.ran ++ [e] }.observed P token queued e
  | .applyCardResolution card probe => s.applyCardResolution P token card probe
  | .updateCardType handle cardType => s.publish token (.updateCardType handle cardType)

/-- The block a timer brings: the probe is made again if the card is still
pending. -/
def retry (card : CoreCard) (queued : Bool) : CardsState Attempts :=
  if card.id ∈ s.pendingCards then s.scheduleCardResolve P card queued else s

/-- `setOnKeyRemoved`'s hook, as far as it concerns the reader. -/
def keyRemoved (card : CoreCard) : CardsState Attempts :=
  { s with trace := s.trace ++ [Mark.keyRemoved card.id] }.setReaderHold card.reader false

end CardsState

/-- A move of one of the threads. -/
inductive CardsInput
  | monitor (e : MonitorEvent)
  | keyRemoved (card : CoreCard)
  | run (queued : Bool)
  | probed (i : ℕ) (probe : CardProbe)
  | fire (i : ℕ) (queued : Bool)
  | learned (handle : Handle) (cardType : String)
  deriving DecidableEq, Repr

namespace CardsState

variable {Attempts : Type*} (P : CardResolutionPolicy Attempts)
variable (token : ReaderInterface → String) (s : CardsState Attempts)

/-- **One move.** The monitor keeps its promise, the hook is run for a card
the monitor inserted, and a block is run when there is one. -/
def step : CardsInput → Option (CardsState Attempts)
  | .monitor e =>
    if (Bench.of s.history).Allows e then some { s with posted := s.posted ++ [.observed e] }
    else none
  | .keyRemoved card =>
    if .cardPublished card ∈ s.history then some (s.keyRemoved card) else none
  | .run queued =>
    match s.posted with
    | [] => none
    | job :: posted => some ({ s with posted := posted }.runJob P token queued job)
  | .probed i probe =>
    s.probes[i]?.map fun e =>
      { s with probes := s.probes.eraseIdx i
               posted := s.posted ++ [.applyCardResolution e.1 probe] }
  | .fire i queued =>
    s.timers[i]?.map fun card => { s with timers := s.timers.eraseIdx i }.retry P card queued
  | .learned handle cardType =>
    some { s with posted := s.posted ++ [.updateCardType handle cardType] }

/-- Before the monitor's first event. -/
def start : CardsState Attempts where
  readerNames := ∅
  pendingCards := ∅
  presence := .empty
  workers := []
  held := []
  posted := []
  timers := []
  probes := []
  ran := []
  trace := []

end CardsState

/-- **Cards, from insertion to publication.** -/
def cardResolution {Attempts : Type*} (P : CardResolutionPolicy Attempts)
    (token : ReaderInterface → String) : Machine (CardsState Attempts) CardsInput where
  init s := s = .start
  step s i := s.step P token i

/-! A small policy to run the model on: a refused session is asked about
three times, and the reader of every card whose probe went well is held. -/

def plainPolicy : CardResolutionPolicy ℕ where
  attempts := 0
  retryAfter refused probe attempts :=
    if probe.failure.any refused && attempts < 3 then (some 50, attempts + 1) else (none, attempts)
  holdsReader probe _ _ := probe.failure.isNone

end Frontend

end LibreDarwin
