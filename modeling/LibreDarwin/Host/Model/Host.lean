import LibreDarwin.Frontend.Model.Frontend
import LibreDarwin.Prompter.Model.Confirm
import LibreDarwin.Prompter.Model.Exchange

/-!
# The agent, its prompter and the device owner

The frontend over its transport and the client against the prompter, as
`main` puts them together: the frontend's confirm provider is a call of the
client's. Each question waits on a worker of its own, since the confirm
queue is a concurrent one, and the worker makes that call. The device owner
answers the dialog that the prompter's provider raises.

Everything else of the two goes on as it does without the other, in any
order of steps. A question is told by the number of its request.
-/

namespace LibreDarwin

namespace Host

open Frontend Wire
open Prompter (AgentLibrary ClientCall Evaluation Exchange ExchangeInput Line Outcome)

/-- The question as the client takes it. -/
def wireAction (action : Frontend.ConfirmAction) : Prompter.ConfirmAction where
  kind := action.kind
  title := action.title
  description := action.description
  descriptionKey := action.descriptionKey
  requester := action.requester
  artifact := action.artifact

/-- The status as the frontend reads it. -/
def verdict : Prompter.PromptReplyStatus → Frontend.PromptReplyStatus
  | .ok => .ok
  | .okMrz => .okMrz
  | .cancelled => .cancelled
  | .timeout => .timeout
  | .error => .error
  | .unauthorized => .unauthorized

/-- A dialog that is over: the connection it was raised on, what it asked,
and what came of it. -/
structure Dialog where
  conn : Prompter.ConnId
  action : Prompter.ConfirmAction
  evaluation : Evaluation
  deriving DecidableEq, Repr

/-- **The state of the three.** `calls` says which of the client's calls a
question is put by. -/
structure HostState (V : Type*) where
  frontend : FrontendState V
  exchange : Exchange := {}
  calls : List (ℕ × ℕ) := []
  dialogs : List Dialog := []

inductive HostInput
  | frontend (i : FrontendInput)
  | exchange (i : ExchangeInput)
  | confirm (idx : ℕ) (authorized : Bool)
  | unreachable (idx : ℕ) (peer : Prompter.Peer)
  | answer (idx : ℕ)
  | owner (j : ℕ) (evaluation : Evaluation)

/-- The inputs of the frontend that are not a worker's. -/
def ownInput : FrontendInput → Bool
  | .answer _ _ => false
  | _ => true

/-- The inputs of the exchange that are not a confirmation's. -/
def ownExchange : ExchangeInput → Bool
  | .connect (.requestConfirmation _) _ => false
  | .prompter (.providerReturns _ (.confirm _)) => false
  | _ => true

/-- What a call's outcome is to the worker that made it. -/
def outcomeVerdict : Outcome → Frontend.PromptReplyStatus
  | .confirmation r => verdict r.status
  | _ => .error

namespace HostState

variable {V Trust : Type*} (A : Agent V Trust) (L : AgentLibrary) (s : HostState V)

/-- The worker of a question connects. -/
def confirm (idx : ℕ) (authorized : Bool) : Option (HostState V) :=
  match s.frontend.asks[idx]? with
  | none => none
  | some ask =>
    if ask.n ∈ s.calls.map Prod.fst then none
    else
      (s.exchange.step L (.connect (.requestConfirmation (wireAction ask.action)) authorized)).map
        fun exchange =>
          { s with exchange := exchange
                   calls := s.calls ++ [(ask.n, s.exchange.lines.length)] }

/-- The worker of a question finds no prompter to connect to. -/
def unreachable (idx : ℕ) (peer : Prompter.Peer) : Option (HostState V) :=
  match s.frontend.asks[idx]? with
  | none => none
  | some ask =>
    if ask.n ∈ s.calls.map Prod.fst ∨ peer.connects = true then none
    else
      let r := (Prompter.requestConfirmation L peer (wireAction ask.action)).1
      (s.frontend.step A (.answer idx (verdict r.status))).map fun frontend =>
        { s with frontend := frontend }

/-- The call of a question is over, and its worker goes on with the
verdict. -/
def answer (idx : ℕ) : Option (HostState V) :=
  match s.frontend.asks[idx]? with
  | none => none
  | some ask =>
    match s.calls.lookup ask.n with
    | none => none
    | some k =>
      match s.exchange.lines[k]? with
      | some ⟨_, call, _, some met⟩ =>
        (s.frontend.step A (.answer idx (outcomeVerdict (call.run L met)))).map fun frontend =>
          { s with frontend := frontend }
      | _ => none

/-- The dialog of a provider is over. -/
def owner (j : ℕ) (evaluation : Evaluation) : Option (HostState V) :=
  match s.exchange.prompter.server.blocks[j]? with
  | some ⟨conn, .call (.confirmProvider action), _⟩ =>
    (s.exchange.step L (.prompter (.providerReturns j
      (.confirm (Prompter.confirmWithDeviceOwner evaluation))))).map fun exchange =>
        { s with exchange := exchange
                 dialogs := s.dialogs ++ [⟨conn, action, evaluation⟩] }
  | _ => none

/-- **One step of the three.** -/
def step : HostInput → Option (HostState V)
  | .frontend i =>
    if ownInput i then (s.frontend.step A i).map fun frontend => { s with frontend := frontend }
    else none
  | .exchange i =>
    if ownExchange i then (s.exchange.step L i).map fun exchange => { s with exchange := exchange }
    else none
  | .confirm idx authorized => s.confirm L idx authorized
  | .unreachable idx peer => s.unreachable A L idx peer
  | .answer idx => s.answer A L idx
  | .owner j evaluation => s.owner L j evaluation

/-- Before the first client, with a prompter nobody has asked anything. -/
def start (store : V) : HostState V where
  frontend := .start store

end HostState

/-- **The agent, its prompter and the device owner.** -/
def host {V Trust : Type*} (A : Agent V Trust) (L : AgentLibrary) :
    Machine (HostState V) HostInput where
  init s := ∃ store, s = .start store
  step s i := s.step A L i

end Host

end LibreDarwin
