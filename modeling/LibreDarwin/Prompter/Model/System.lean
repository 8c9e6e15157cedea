import LibreDarwin.Prompter.Model.Server
import LibreDarwin.Prompter.Model.Window

/-!
# The prompter

The server and the window together, over the main queue that lies between
them. A worker that asks for a panel puts its raising on the main queue
and waits; a cancellation puts its sweep there from the serial queue, and
a reset from a worker, after it has listed the panels. The main queue runs
its blocks in order; the serial queue, the workers, the holder and the
clock come in between at any time.

Beside that state there is a history of three kinds: what the serial queue
processed, who raised each panel, and how many answers there were when a
sweep ran.
-/

namespace LibreDarwin

namespace Prompter

open Wire

/-- A block of the main queue, with the connection it is there for. -/
inductive MainBlock
  | showPrompt (conn : ConnId) (req : PromptRequest)
  | showChangePrompt (conn : ConnId) (req : RequestSecrets)
  | dismiss (conn : ConnId) (promptId : String)
  | liveIds (conn : ConnId)
  | dismissAll (conn : ConnId)
  deriving DecidableEq, Repr

/-- How far a dismissal reaches. -/
inductive Scope
  | cancel (promptId : String)
  | reset
  deriving DecidableEq, Repr

/-- What the serial queue processed: a request that raises a panel, or a
dismissal. -/
inductive Order
  | request (conn : ConnId) (promptId : String)
  | dismissal (conn : ConnId) (scope : Scope)
  deriving DecidableEq, Repr

/-- **The prompter's state.** `listed` are the resets between their two
blocks, `closed` the counts they have got. -/
structure System where
  server : Server := {}
  window : Window := {}
  mainQueue : List MainBlock := []
  listed : List ConnId := []
  closed : List (ConnId × UInt32) := []
  orders : List Order := []
  raisers : List ConnId := []
  sweeps : List (ConnId × Scope × ℕ) := []

inductive SystemInput
  | serial (i : ServerInput)
  | runBlock (i : ℕ)
  | providerReturns (i : ℕ) (result : Result)
  | mainTurn
  | resetGoesOn (conn : ConnId)
  | user (i : WindowInput)

/-- What a block of the main queue is there for. -/
def MainBlock.order : MainBlock → Order
  | .showPrompt conn req => .request conn req.promptId
  | .showChangePrompt conn req => .request conn req.promptId
  | .dismiss conn promptId => .dismissal conn (.cancel promptId)
  | .liveIds conn => .dismissal conn .reset
  | .dismissAll conn => .dismissal conn .reset

section Calls

variable (L : AgentLibrary) (conn : ConnId)

/-- What a call counts as. A flow the window does not implement raises no
panel, and the confirmation is the platform's own. -/
def Call.order : Call → Option Order
  | .provider r => some (.request conn r.promptId)
  | .multiProvider r => if r.kind = L.kKindChangePin then some (.request conn r.promptId) else none
  | .cancel promptId => some (.dismissal conn (.cancel promptId))
  | .confirmProvider _ => none
  | .reset => some (.dismissal conn .reset)

def Task.order : Task → Option Order
  | .call c => c.order L conn
  | .refuse _ => none

def Dispatch.order : Dispatch → Option Order
  | .drop => none
  | .handle c => c.order L conn
  | .post task => task.order L conn

/-- What a handler first puts on the main queue. -/
def Call.mainBlock : Call → Option MainBlock
  | .provider r => some (.showPrompt conn r)
  | .multiProvider r => if r.kind = L.kKindChangePin then some (.showChangePrompt conn r) else none
  | .cancel promptId => some (.dismiss conn promptId)
  | .confirmProvider _ => none
  | .reset => some (.liveIds conn)

def Task.mainBlock : Task → Option MainBlock
  | .call c => c.mainBlock L conn
  | .refuse _ => none

/-- Only what is handled inline gets there from the serial queue. -/
def Dispatch.mainBlock : Dispatch → Option MainBlock
  | .handle c => c.mainBlock L conn
  | .drop | .post _ => none

end Calls

/-- The inputs of the window that come from outside the prompter. -/
def WindowInput.fromUser : WindowInput → Bool
  | .edit _ _ _ | .okPressed _ | .cancelPressed _ | .windowShouldClose _ | .deadlineFired _ => true
  | _ => false

/-- The inputs of the server that the serial queue runs. -/
def ServerInput.onSerialQueue : ServerInput → Bool
  | .accept _ | .readReady _ _ _ | .stop | .start => true
  | .runBlock _ | .providerReturns _ _ => false

namespace System

variable (L : AgentLibrary) (s : System)

/-- What a frame that is read now is dispatched to. -/
def dispatched : ServerInput → Option (ConnId × Dispatch)
  | .readReady id (frame :: _) _ =>
    if id ∈ s.server.connections then some (id, dispatch L frame) else none
  | _ => none

/-- A block of the serial queue. -/
def serial (i : ServerInput) : Option System :=
  if i.onSerialQueue then
    (s.server.step L i).map fun server =>
      match s.dispatched L i with
      | none => { s with server := server }
      | some (conn, d) =>
        { s with server := server
                 mainQueue := s.mainQueue ++ (d.mainBlock L conn).toList
                 orders := s.orders ++ (d.order L conn).toList }
  else none

/-- A worker takes a block up. -/
def runBlock (i : ℕ) : Option System :=
  match s.server.blocks[i]? with
  | none => none
  | some block =>
    (s.server.runBlock i).map fun server =>
      { s with server := server
               mainQueue := s.mainQueue ++ (block.task.mainBlock L block.conn).toList }

/-- What a provider may return: what its panel was answered with, the
count of its sweep, or what the device owner said. -/
def Returns (conn : ConnId) : Call → Result → Prop
  | .provider _, .secret r =>
    ∃ e ∈ s.window.answers, s.raisers[e.1]? = some conn ∧
      r = { status := e.2.status, secret := e.2.primary }
  | .multiProvider req, .secrets r =>
    if req.kind = L.kKindChangePin then
      ∃ e ∈ s.window.answers, s.raisers[e.1]? = some conn ∧
        r = { status := e.2.status, primary := e.2.primary, secondary := e.2.secondary }
    else r = { status := .error, userMessage := "unsupported RequestSecrets kind" }
  | .reset, .closed count => (conn, count) ∈ s.closed
  | .confirmProvider _, .confirm _ => True
  | _, _ => False

instance (conn : ConnId) (call : Call) (result : Result) :
    Decidable (s.Returns L conn call result) := by
  unfold Returns
  split <;> infer_instance

/-- A provider returns on its worker. -/
def providerReturns (i : ℕ) (result : Result) : Option System :=
  match s.server.blocks[i]? with
  | some ⟨conn, .call c, _⟩ =>
    if s.Returns L conn c result then
      (s.server.providerReturns i result).map fun server => { s with server := server }
    else none
  | _ => none

/-- A block runs on the main thread. -/
def runMain : MainBlock → System
  | .showPrompt conn req =>
    { s with window := s.window.showPrompt req
             raisers := s.raisers ++ [conn] }
  | .showChangePrompt conn req =>
    { s with window := s.window.raise req.promptId (changePanel req)
             raisers := s.raisers ++ [conn] }
  | .dismiss conn promptId =>
    { s with window := s.window.dismiss promptId
             sweeps := s.sweeps ++ [(conn, .cancel promptId, s.window.answers.length)] }
  | .liveIds conn => { s with listed := s.listed ++ [conn] }
  | .dismissAll conn =>
    { s with window := s.window.dismissAll.1
             closed := s.closed ++ [(conn, s.window.dismissAll.2)]
             sweeps := s.sweeps ++ [(conn, .reset, s.window.answers.length)] }

/-- The main queue runs its first block. -/
def mainTurn : Option System :=
  match s.mainQueue with
  | [] => none
  | block :: queue => some ({ s with mainQueue := queue }.runMain block)

/-- The reset handler, between listing the panels and sweeping them. -/
def resetGoesOn (conn : ConnId) : Option System :=
  if conn ∈ s.listed then
    some { s with listed := s.listed.erase conn, mainQueue := s.mainQueue ++ [.dismissAll conn] }
  else none

/-- **One step of the prompter.** -/
def step : SystemInput → Option System
  | .serial i => s.serial L i
  | .runBlock i => s.runBlock L i
  | .providerReturns i result => s.providerReturns L i result
  | .mainTurn => s.mainTurn
  | .resetGoesOn conn => s.resetGoesOn conn
  | .user i => if i.fromUser then some { s with window := s.window.step L i } else none

end System

/-- **The prompter**, from its start on. -/
def prompter (L : AgentLibrary) : Machine System SystemInput where
  init s := s = {}
  step s i := s.step L i

end Prompter

end LibreDarwin
