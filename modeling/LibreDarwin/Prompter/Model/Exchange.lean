import LibreDarwin.Prompter.Model.Reset
import LibreDarwin.Prompter.Model.System

/-!
# The agent against its prompter

Any number of calls of the agent's client, each on a connection of its
own, and the prompter they are made to, in any order of steps. A call
whose socket does not connect meets no prompter and is not in here. Other
peers may hold connections too, and send anything on them.

A call is taken to have heard a frame only where the prompter replied on
its connection, and the prompter to have heard one only where the call has
sent it.
-/

namespace LibreDarwin

namespace Prompter

open Wire

variable (L : AgentLibrary)

def requestPin (peer : Peer) (options : PromptOptions) : PromptResult × List Bytes :=
  request L peer .pin options

def requestCan (peer : Peer) (options : PromptOptions) : PromptResult × List Bytes :=
  request L peer .can options

def requestMrz (peer : Peer) (options : PromptOptions) : PromptResult × List Bytes :=
  request L peer .mrz options

/-- A call of the client's. -/
inductive ClientCall
  | requestPin (options : PromptOptions)
  | requestCan (options : PromptOptions)
  | requestMrz (options : PromptOptions)
  | requestPinChange (options : PromptOptions)
  | requestConfirmation (action : ConfirmAction)
  | cancel (promptId : String)
  | reset

deriving instance DecidableEq for PromptReader
deriving instance DecidableEq for PromptOptions
deriving instance DecidableEq for ClientCall
deriving instance DecidableEq for Peer
deriving instance DecidableEq for ResetPeer

/-- What a call gives its caller. -/
inductive Outcome
  | secret (r : PromptResult)
  | pinChange (r : PinChangePromptResult)
  | confirmation (r : ConfirmReply)
  | nothing
  | logged (line : Option LogLine)
  deriving DecidableEq, Repr

namespace ClientCall

/-- The message a call sends. -/
def message : ClientCall → PrompterRequest
  | .requestPin o => .prompt (buildRequest L .pin o)
  | .requestCan o => .prompt (buildRequest L .can o)
  | .requestMrz o => .prompt (buildRequest L .mrz o)
  | .requestPinChange o => .secrets (buildChangeRequest L o)
  | .requestConfirmation action => .confirm action
  | .cancel promptId => .cancel ⟨promptId⟩
  | .reset => .reset

def body (call : ClientCall) : Bytes := L.encode (toCbor ((call.message L).fields L))

/-- **A call**, against what it meets. -/
def run (met : ResetPeer) : ClientCall → Outcome
  | .requestPin o => .secret (Prompter.requestPin L met.toPeer o).1
  | .requestCan o => .secret (Prompter.requestCan L met.toPeer o).1
  | .requestMrz o => .secret (Prompter.requestMrz L met.toPeer o).1
  | .requestPinChange o => .pinChange (Prompter.requestPinChange L met.toPeer o).1
  | .requestConfirmation action => .confirmation (Prompter.requestConfirmation L met.toPeer action).1
  | .cancel _ => .nothing
  | .reset => .logged (Prompter.reset L met).1

/-- The frames it hands to the socket. -/
def frames (met : ResetPeer) : ClientCall → List Bytes
  | .requestPin o => (Prompter.requestPin L met.toPeer o).2
  | .requestCan o => (Prompter.requestCan L met.toPeer o).2
  | .requestMrz o => (Prompter.requestMrz L met.toPeer o).2
  | .requestPinChange o => (Prompter.requestPinChange L met.toPeer o).2
  | .requestConfirmation action => (Prompter.requestConfirmation L met.toPeer action).2
  | .cancel promptId => Prompter.cancel L met.toPeer promptId
  | .reset => (Prompter.reset L met).2

/-- Whether its request goes out. Only the calls that ask the holder for a
secret bound their wait before they send. -/
def goesOut (met : ResetPeer) : ClientCall → Bool
  | .requestConfirmation _ | .cancel _ | .reset => met.verifies && met.sends
  | .requestPin _ | .requestCan _ | .requestMrz _ | .requestPinChange _ =>
    met.verifies && met.bounds && met.sends

end ClientCall

def PrompterReply.body (r : PrompterReply) : Bytes := L.encode (toCbor (r.fields L))

/-- **A call on its connection**: who it is to the prompter, whether its
request went out, and what it has met once it is over. -/
structure Line where
  peer : Peer.Name
  call : ClientCall
  sent : Bool := false
  met : Option ResetPeer := none
  deriving DecidableEq

/-- **The state of the two sides.** -/
structure Exchange where
  prompter : System := {}
  lines : List Line := []

inductive ExchangeInput
  | connect (call : ClientCall) (authorized : Bool)
  | send (i : ℕ)
  | returns (i : ℕ) (met : ResetPeer)
  | prompter (i : SystemInput)

/-- The replies sent on a peer's account. -/
def System.repliesTo (s : System) (peer : Peer.Name) : List PrompterReply :=
  s.server.trace.filterMap fun
    | (name, .replied reply) => if name = peer then some reply else none
    | _ => none

namespace Exchange

variable (s : Exchange)

/-- Who the next peer is. -/
def nextPeer (authorized : Bool) : Peer.Name :=
  if authorized then .conn s.prompter.server.nextConnId else .refused s.prompter.server.refused

/-- A call connects. -/
def connect (call : ClientCall) (authorized : Bool) : Option Exchange :=
  (s.prompter.step L (.serial (.accept authorized))).map fun prompter =>
    { prompter := prompter
      lines := s.lines ++ [{ peer := s.nextPeer authorized, call := call }] }

/-- Its request goes out. -/
def send (i : ℕ) : Option Exchange :=
  match s.lines[i]? with
  | none => none
  | some line =>
    if line.sent ∨ line.met.isSome then none
    else some { s with lines := s.lines.set i { line with sent := true } }

/-- What a call that is over can have met: a socket that connected, a
request that went out or did not, and no frame but a reply on its own
connection. -/
def CanMeet (line : Line) (met : ResetPeer) : Prop :=
  met.connects = true ∧ line.sent = line.call.goesOut met ∧
    (∀ frame ∈ met.received.toOption, frame ∈ (s.prompter.repliesTo line.peer).map (·.body L)) ∧
    line.call.run L met ≠ .logged none

instance (line : Line) (met : ResetPeer) : Decidable (s.CanMeet L line met) := by
  unfold CanMeet
  infer_instance

/-- A call is over. -/
def returns (i : ℕ) (met : ResetPeer) : Option Exchange :=
  match s.lines[i]? with
  | none => none
  | some line =>
    if line.met.isNone ∧ s.CanMeet L line met then
      some { s with lines := s.lines.set i { line with met := some met } }
    else none

/-- What the prompter can be given: on the connection of a call nothing
but the call's own request, once it has gone out. -/
def Admits : SystemInput → Prop
  | .serial (.readReady id frames _) => ∀ line ∈ s.lines, line.peer = .conn id →
      frames = [] ∨ line.sent = true ∧ frames = [line.call.body L]
  | _ => True

instance (i : SystemInput) : Decidable (s.Admits L i) := by
  unfold Admits
  split <;> infer_instance

/-- The prompter takes a step. -/
def stepPrompter (i : SystemInput) : Option Exchange :=
  if s.Admits L i then (s.prompter.step L i).map fun prompter => { s with prompter := prompter }
  else none

/-- **One step of the two.** -/
def step : ExchangeInput → Option Exchange
  | .connect call authorized => s.connect L call authorized
  | .send i => s.send i
  | .returns i met => s.returns L i met
  | .prompter i => s.stepPrompter L i

end Exchange

/-- **The agent against its prompter**, from the prompter's start on. -/
def exchange : Machine Exchange ExchangeInput where
  init s := s = {}
  step s i := s.step L i

end Prompter

end LibreDarwin
