import LibreDarwin.Common.Machine
import LibreDarwin.Prompter.Model.Protocol

/-!
# The prompter's server

The serial queue accepts, reads and dispatches; a request that asks for
something becomes a block of the concurrent worker queue, which calls one
provider and sends one reply. The inputs are the blocks of the two queues,
in any order, and a provider's return.

A connection is named by its id, a refused peer by its place among the
refused. Beside what the source keeps there is a trace: what happened on
each peer's account. Nothing the server does reads it. The listener and
its guard are modelled by themselves; here it only matters that a stopped
server accepts nobody.
-/

namespace LibreDarwin

namespace Prompter

open Wire

abbrev ConnId := ℕ

def unauthorizedReply : PromptReply :=
  { status := .unauthorized, userMessage := "caller is not the agent" }

def unsupportedVersionReply : PromptReply :=
  { status := .error, userMessage := "prompter protocol version not supported by this helper" }

def unsupportedConfirmation : ConfirmReply :=
  { status := .error, userMessage := "unsupported confirmation" }

/-- A call of one of the handlers the host registered. -/
inductive Call
  | provider (req : PromptRequest)
  | multiProvider (req : RequestSecrets)
  | cancel (promptId : String)
  | confirmProvider (req : ConfirmAction)
  | reset
  deriving DecidableEq, Repr

/-- What a handler returns. -/
inductive Result
  | secret (r : PromptReply)
  | secrets (r : MultiPromptReply)
  | confirm (r : ConfirmReply)
  | closed (count : UInt32)
  deriving DecidableEq, Repr

/-- Whether a handler returns results of this type. A cancellation returns
nothing. -/
def Call.returns : Call → Result → Bool
  | .provider _, .secret _ | .multiProvider _, .secrets _ | .confirmProvider _, .confirm _
  | .reset, .closed _ => true
  | _, _ => false

/-- The reply that carries a result. -/
def Result.reply : Result → PrompterReply
  | .secret r => .secret r
  | .secrets r => .secrets r
  | .confirm r => .confirm r
  | .closed count => .resetDone ⟨count⟩

/-- What a worker block does. -/
inductive Task
  | call (call : Call)
  | refuse (reply : PrompterReply)
  deriving DecidableEq, Repr

/-- What the serial queue does with a frame. -/
inductive Dispatch
  | drop
  | handle (call : Call)
  | post (task : Task)
  deriving DecidableEq, Repr

/-- `onReadReady`, from the frame on. -/
def dispatch (L : AgentLibrary) (frame : Bytes) : Dispatch :=
  match parsePrompterRequest L frame with
  | .error .unsupportedVersion => .post (.refuse (.secret unsupportedVersionReply))
  | .error _ => .drop
  | .ok (.cancel r) => .handle (.cancel r.promptId)
  | .ok (.prompt r) => .post (.call (.provider r))
  | .ok (.secrets r) => .post (.call (.multiProvider r))
  | .ok (.confirm r) =>
    if r.kind ≠ "configure_trust" then .post (.refuse (.confirm unsupportedConfirmation))
    else .post (.call (.confirmProvider r))
  | .ok .reset => .post (.call .reset)

/-- A block of the worker queue, with its share of the descriptor. A
`called` one is inside its provider. -/
structure Block where
  conn : ConnId
  task : Task
  called : Bool
  deriving DecidableEq, Repr

inductive Peer.Name
  | conn (id : ConnId)
  | refused (n : ℕ)
  deriving DecidableEq, Repr

/-- What happens on a peer's account. -/
inductive Mark
  | accepted
  | rejected
  | arrived (frames : List Bytes) (ok : Bool)
  | called (call : Call)
  | returned (result : Result)
  | replied (reply : PrompterReply)
  deriving DecidableEq, Repr

/-- **The server's state.** -/
structure Server where
  started : Bool := true
  nextConnId : ConnId := 1
  refused : ℕ := 0
  connections : Finset ConnId := ∅
  blocks : List Block := []
  trace : List (Peer.Name × Mark) := []

inductive ServerInput
  | accept (authorized : Bool)
  | readReady (id : ConnId) (frames : List Bytes) (ok : Bool)
  | runBlock (i : ℕ)
  | providerReturns (i : ℕ) (result : Result)
  | stop
  | start
  deriving DecidableEq, Repr

namespace Server

variable (L : AgentLibrary) (s : Server)

def log (peer : Peer.Name) (marks : List Mark) : Server :=
  { s with trace := s.trace ++ marks.map fun m => (peer, m) }

/-- `acceptOne`. -/
def acceptOne (authorized : Bool) : Server :=
  if authorized then
    { s with nextConnId := s.nextConnId + 1
             connections := insert s.nextConnId s.connections }.log (.conn s.nextConnId) [.accepted]
  else
    { s with refused := s.refused + 1 }.log (.refused s.refused)
      [.rejected, .replied (.secret unauthorizedReply)]

/-- `closeConnection`: the read side is retired. -/
def closeConnection (id : ConnId) : Server := { s with connections := s.connections.erase id }

def carryOut (id : ConnId) : Dispatch → Server
  | .drop => s
  | .handle call => s.log (.conn id) [.called call]
  | .post task => { s with blocks := s.blocks ++ [⟨id, task, false⟩] }

/-- `onReadReady`: the first frame is the request. -/
def onReadReady (id : ConnId) (frames : List Bytes) (ok : Bool) : Server :=
  if id ∉ s.connections then s
  else
    let s := s.log (.conn id) [.arrived frames ok]
    match frames with
    | [] => if ok then s else s.closeConnection id
    | frame :: _ => (s.closeConnection id).carryOut id (dispatch L frame)

/-- A worker takes a block up: a refusal is sent, a provider is called. -/
def runBlock (i : ℕ) : Option Server :=
  match s.blocks[i]? with
  | none => none
  | some block =>
    if block.called then none
    else
      match block.task with
      | .refuse reply =>
        some ({ s with blocks := s.blocks.eraseIdx i }.log (.conn block.conn) [.replied reply])
      | .call call =>
        some ({ s with blocks := s.blocks.set i { block with called := true } }.log
          (.conn block.conn) [.called call])

/-- The provider returns, and its result is sent. -/
def providerReturns (i : ℕ) (result : Result) : Option Server :=
  match s.blocks[i]? with
  | none => none
  | some block =>
    match block.task with
    | .refuse _ => none
    | .call call =>
      if block.called ∧ call.returns result then
        some ({ s with blocks := s.blocks.eraseIdx i }.log (.conn block.conn)
          [.returned result, .replied result.reply])
      else none

/-- `stop`: every source is cancelled. The blocks go on. -/
def stop : Server := { s with started := false, connections := ∅ }

/-- **One block of a queue.** -/
def step : ServerInput → Option Server
  | .accept authorized => if s.started then some (s.acceptOne authorized) else none
  | .readReady id frames ok => some (s.onReadReady L id frames ok)
  | .runBlock i => s.runBlock i
  | .providerReturns i result => s.providerReturns i result
  | .stop => some s.stop
  | .start => some { s with started := true }

end Server

/-- **The prompter's server**, from its first start on. -/
def server (L : AgentLibrary) : Machine Server ServerInput where
  init s := s = {}
  step s i := s.step L i

end Prompter

end LibreDarwin
