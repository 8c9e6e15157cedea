import LibreDarwin.Frontend.Model.Request
import LibreDarwin.Transport.Model.Loop
import LibreDarwin.Transport.Model.OperationChannel

/-!
# The frontend's state

The frontend over the transport: the stores its handlers keep, what it
handed to others and waits for (persons, the broker, the operations it
launched), the blocks posted to the loop and the timers that post one.
Beside what the source keeps, the state numbers the requests as they are
dispatched, keeps what the launched operations are, and has a log of what
was done. Nothing the frontend does reads these three.
-/

namespace LibreDarwin

namespace Frontend

open Wire Transport OperationChannel

structure SignedArtifact where
  bytes : Bytes
  info : SignMeta
  deriving DecidableEq, Repr

structure SignRecord where
  artifact : SignedArtifact
  owner : CallerToken
  deriving DecidableEq, Repr

/-- What a confirmation runs when the answer is yes: the closure handed to
`confirmThenApply`, with what it captured. -/
inductive Apply
  | configWrite (msg : SetConfig)
  | configReset (msg : ResetConfig)
  | importAnchors (held : Fd)

namespace Apply

/-- The key a change is about. -/
def key : Apply → String
  | .configWrite msg => msg.key
  | .configReset msg => msg.key
  | .importAnchors _ => cscaAnchorState

def what : Apply → TrustChange
  | .configWrite _ => .setValue
  | .configReset _ => .reset
  | .importAnchors _ => .importAnchors

end Apply

/-- A confirmation handed to the confirm provider, with what its block
captured; `n` is the request it was raised for. -/
structure Ask where
  n : ℕ
  connId : ConnId
  req : ℕ
  caller : CallerToken
  action : ConfirmAction
  apply : Apply

/-- A call the broker has not answered. -/
structure BrokerCall where
  n : ℕ
  connId : ConnId
  req : ℕ
  reader : Handle
  verb : BrokerVerb
  caller : CallerToken
  requester : String
  deriving DecidableEq, Repr

/-- What the worker of an operation hands its channel. The `info` of a
result is that of a signed artifact. -/
inductive Emission
  | progress (phase : ℕ)
  | group (groupKey : String) (fields : Bytes)
  | result (payload : ResultPayload) (info : SignMeta)
  | finished (status code : ℕ) (msgKey msgFallback : String)
  deriving DecidableEq, Repr

/-- A launched operation: the request that launched it, the channel it was
given, and whether its worker has finished. -/
structure Operation where
  n : ℕ
  connId : ConnId
  owner : CallerToken
  onSignArtifact : Bool
  finished : Bool
  deriving DecidableEq, Repr

/-- A block posted to the loop. The bytes a frame carries stand beside the
descriptors they are behind. -/
inductive Block
  | answered (ask : Ask) (verdict : PromptReplyStatus)
  | reply (n : ℕ) (connId : ConnId) (m : Message)
  | event (op : OpId) (connId : ConnId) (m : Message) (fds : List Fd) (carries : List Bytes)
  | stash (op : OpId) (owner : CallerToken) (artifact : SignedArtifact)
  | prune (op : OpId)
  | evictSignResult (op : OpId)
  | evictClient (caller : CallerToken)

/-- **What the frontend did**, in order. What is done for a request has the
request's number. A reply and an event say which bytes their descriptors
are of, and whether the connection was there to take them. -/
inductive Deed
  | authorized (n : ℕ) (action : AuthAction) (outcome : AuthorizationOutcome)
  | allowed (n : ℕ) (ok : Bool)
  | readFd (n : ℕ) (fd : Fd) (outcome : ReadOutcome)
  | cancel (n : ℕ) (op : OpId) (called : Bool)
  | fetched (n : ℕ) (op : OpId) (fits : Bytes → Bool)
  | launched (n : ℕ) (op : OpId) (target : OperationTarget) (spec : LaunchSpec)
  | asked (n : ℕ) (connId : ConnId) (req : ℕ) (key : String)
  | answered (n : ℕ) (verdict : PromptReplyStatus)
  | applied (n : ℕ) (connId : ConnId) (req : ℕ) (confirmed : Bool) (effects : List Effect)
  | brokered (n : ℕ) (verb : BrokerVerb)
  | replied (n : ℕ) (connId : ConnId) (m : Message) (carries : Option (OpId × Bytes)) (sent : Bool)
  | emitted (op : OpId) (m : Message)
  | delivered (op : OpId) (connId : ConnId) (m : Message) (carries : List Bytes) (sent : Bool)
  | stashed (op : OpId) (owner : CallerToken) (artifact : SignedArtifact)
  | pruned (op : OpId)
  | evictedSignResult (op : OpId)
  | evictedClient (caller : CallerToken)

/-- **The agent**: the library's two halves, and the wire. -/
structure Agent (V Trust : Type*) where
  core : AgentCore V Trust
  library : Library V
  wire : Wire Envelope

/-- What the rest of the agent answers while the loop runs one event: the
authorizer, the rate limiter, the caller's label, a read of a descriptor,
the clock, the launcher (with what the worker emits before it returns), the
cache of credential listings, the broker's leases, an anonymous file, and
the kernel. -/
structure Outside where
  authorize : AuthAction → CallerToken → AuthorizationOutcome
  allow : CallerToken → Bool
  requesterLabel : CallerToken → String
  readBoundedRegularFd : Fd → ℕ → ReadOutcome
  now : ℤ
  launched : Except SyncError (OpId × List Emission)
  credentialSnapshot : String → Option CredentialSnapshot
  loginActive : Handle → CallerToken → Bool
  anonFdFromBytes : Bytes → Option Fd
  kernel : ConnId → List IoResult

/-- `alive` is the confirm guard's flag. -/
structure FrontendState (V : Type*) where
  transport : State Envelope
  store : V
  confirmsInFlight : List CallerToken
  opOwners : OpId → Option CallerToken
  signResults : OpId → Option SignRecord
  alive : Bool
  asks : List Ask
  brokerCalls : List BrokerCall
  posted : List Block
  delayed : List OpId
  requests : List Inbound
  ops : OpId → Option Operation
  log : List Deed

/-- The frontend's disconnect handler, the third that is registered. -/
def frontendHandler : HandlerId := 2

/-- The clients whose disconnect the frontend's handler heard of. -/
def evictions (obs : List (ConnId × Obs Envelope)) : List CallerToken :=
  obs.filterMap fun
    | (_, .disconnected handler caller) => if handler = frontendHandler then some caller else none
    | _ => none

/-- The requests handed to the sink. -/
def inbound (obs : List (ConnId × Obs Envelope)) : List Inbound :=
  obs.filterMap fun
    | (connId, .request caller request fds) => some ⟨connId, caller, request, fds⟩
    | _ => none

/-- The signed documents a payload holds. -/
def artifactBytes : ResultPayload → List Bytes
  | .artifact bytes => [bytes]
  | .batch rows => rows.map Prod.snd
  | _ => []

/-- The stash that goes ahead of a signed artifact's result, where the
channel has a sink for it. -/
def stashBlock (op : OpId) (x : Operation) (info : SignMeta) : ResultPayload → List Block
  | .artifact bytes => if x.onSignArtifact then [.stash op x.owner ⟨bytes, info⟩] else []
  | _ => []

/-- What an emission of a worker posts: `emitPropertiesChanged`,
`emitGroup`, `emitResult` and `emitFinished` of the channel. -/
def emissionBlocks (anonFdFromBytes : Bytes → Option Fd) (op : OpId) (x : Operation) :
    Emission → List Block
  | .progress phase => [.event op x.connId (.opProgress op phase) [] []]
  | .group groupKey fields => [.event op x.connId (.opIdentityGroup op groupKey fields) [] []]
  | .result payload info =>
    match emitResult anonFdFromBytes op payload with
    | none => []
    | some (m, fds) =>
      stashBlock op x info payload ++ [.event op x.connId m fds (artifactBytes payload)]
  | .finished status code msgKey msgFallback =>
    [.event op x.connId (.opFinished op status code msgKey msgFallback) [] [], .prune op]

/-- The messages among blocks. -/
def emittedDeeds (op : OpId) (blocks : List Block) : List Deed :=
  blocks.filterMap fun
    | .event _ _ m _ _ => some (.emitted op m)
    | _ => none

def Emission.IsFinished : Emission → Bool
  | .finished _ _ _ _ => true
  | _ => false

namespace FrontendState

variable {V Trust : Type*} (A : Agent V Trust) (o : Outside) (s : FrontendState V)

def did (deeds : List Deed) : FrontendState V := { s with log := s.log ++ deeds }

/-- Take over what the transport did. The disconnect handler,
`onClientDisconnected`, posts an eviction while there is a frontend. -/
def absorb (t : State Envelope) : FrontendState V :=
  let gone := if s.alive then evictions (t.since s.transport) else []
  { s with transport := t, posted := s.posted ++ gone.map .evictClient }

/-- A call of one of the transport's entry points from the loop. -/
def call (a : Action) : FrontendState V :=
  match s.transport.step A.wire ⟨.act a, o.kernel⟩ with
  | none => s
  | some t => s.absorb t

/-- Whether a frame for a connection would be queued. -/
def Sends (connId : ConnId) : Prop :=
  s.transport.CanAct ∧ connId ∈ s.transport.connections

instance (connId : ConnId) : Decidable (s.Sends connId) :=
  inferInstanceAs (Decidable (_ ∧ _))

/-- `sendTo` with the answer to request `n`. -/
def reply (n : ℕ) (connId : ConnId) (m : Message) (fds : List Fd)
    (carries : Option (OpId × Bytes)) : FrontendState V :=
  (s.did [.replied n connId m carries (s.Sends connId)]).call A o (.sendTo connId m fds)

/-- `sendReplyOnLoop`. -/
def sendReplyOnLoop (n : ℕ) (connId : ConnId) (m : Message) : FrontendState V :=
  s.reply A o n connId m [] none

def replyError (n : ℕ) (connId : ConnId) (req : ℕ) (code : SyncError) : FrontendState V :=
  s.sendReplyOnLoop A o n connId (syncErrorReply req code)

/-- What a worker emits goes to the end of the queue. A worker that has
finished emits no more. -/
def emit (anonFdFromBytes : Bytes → Option Fd) (op : OpId) (e : Emission) : FrontendState V :=
  match s.ops op with
  | none => s
  | some x =>
    if x.finished then s
    else
      let blocks := emissionBlocks anonFdFromBytes op x e
      { s with posted := s.posted ++ blocks
               ops := Function.update s.ops op
                 (some { x with finished := e.IsFinished }) }.did (emittedDeeds op blocks)

end FrontendState

end Frontend

end LibreDarwin
