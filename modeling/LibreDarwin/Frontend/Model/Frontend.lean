import LibreDarwin.Frontend.Model.Handlers

/-!
# The frontend

The request sink over the transport. A request is dispatched as the
transport hands it over; what comes later, comes as a block posted to the
loop: a person's answer, the broker's reply, what an operation emits, a
client's eviction.

`frontend` is the machine of all of it. Its inputs, in any order, are a
step of the transport's loop (`loop`), a person's answer to any question
that stands (`answer`), something an operation's worker emits (`emit`), the
broker's answer to any of its calls (`broker`), a timer (`due`), the block
at the head of the loop's queue (`run`), and the end of the frontend
(`destroy`). Of the transport's entry points only those that publish and
broadcast are inputs; the sends are the frontend's own.
-/

namespace LibreDarwin

namespace Frontend

open Wire Transport Script

/-- Run the closure of a confirmation, or an unconfirmed change. -/
def Apply.run {V Trust : Type*} (A : Agent V Trust) (o : Outside) (req : ℕ) (store : V) :
    Apply → Applied V
  | .configWrite msg => applyConfigWrite A.core req msg store
  | .configReset msg => applyConfigReset A.core req msg store
  | .importAnchors held =>
    applyImport A.core req held
      (fun fd => o.readBoundedRegularFd fd A.library.kMaxMasterListBytes) o.now store

namespace FrontendState

variable {V Trust : Type*} (A : Agent V Trust) (o : Outside) (s : FrontendState V)

/-- Run a closure: on the store, and its reply to the client. -/
def perform (n : ℕ) (connId : ConnId) (req : ℕ) (confirmed : Bool) (x : Apply) :
    FrontendState V :=
  let out := x.run A o req s.store
  { s with store := out.store }.did [.applied n connId req confirmed out.effects]
    |>.sendReplyOnLoop A o n connId out.reply

/-- `confirmThenApply`, up to the confirm queue: a key with no sentence of
its own is not put to a person, and a client has one question at a time. -/
def confirmThenApply (n : ℕ) (i : Inbound) (x : Apply) : FrontendState V :=
  match describeTrustChange x.key x.what with
  | none => s.replyError A o n i.connId i.request.req .notAuthorized
  | some copy =>
    if i.caller ∈ s.confirmsInFlight then
      s.replyError A o n i.connId i.request.req .rateLimited
    else
      let ask := ⟨n, i.connId, i.request.req, i.caller,
        confirmAction copy (o.requesterLabel i.caller) x.key, x⟩
      { s with confirmsInFlight := i.caller :: s.confirmsInFlight
               asks := s.asks ++ [ask] }.did [.asked n i.connId i.request.req x.key]

/-- The launch, and what the worker emits before it returns. -/
def launch (n : ℕ) (i : Inbound) (target : OperationTarget) (spec : LaunchSpec)
    (onSignArtifact : Bool) (op : OpId) (early : List Emission) : FrontendState V :=
  early.foldl (fun s e => s.emit o.anonFdFromBytes op e)
    ({ s with ops := Function.update s.ops op (some ⟨n, i.connId, i.caller, onSignArtifact, false⟩)
      }.did [.launched n op target spec])

/-- `replyLaunched`: the owner is entered, and the reply names the
operation. -/
def replyLaunched (n : ℕ) (i : Inbound) (target : OperationTarget) (spec : LaunchSpec)
    (onSignArtifact : Bool) : FrontendState V :=
  match o.launched with
  | .error code => s.replyError A o n i.connId i.request.req code
  | .ok (op, early) =>
    let s := s.launch o n i target spec onSignArtifact op early
    { s with opOwners := Function.update s.opOwners op (some i.caller) }.sendReplyOnLoop A o n
      i.connId (.opStarted i.request.req op)

/-- What a handler's last act is. -/
def conclude (n : ℕ) (i : Inbound) : Except SyncError Ending → FrontendState V
  | .error code => s.replyError A o n i.connId i.request.req code
  | .ok (.reply m fds carries) => s.reply A o n i.connId m fds carries
  | .ok (.sendThenClose m) =>
    (s.did [.replied n i.connId m none (s.Sends i.connId)]).call A o (.sendThenClose i.connId m)
  | .ok (.hello wantsEvents ack) =>
    (s.call A o (.setWantsPresenceEvents i.connId wantsEvents)).sendReplyOnLoop A o n i.connId ack
  | .ok (.launch target spec onSignArtifact) => s.replyLaunched A o n i target spec onSignArtifact
  | .ok (.confirm x) => s.confirmThenApply A o n i x
  | .ok (.apply x) => s.perform A o n i.connId i.request.req false x
  | .ok (.broker reader verb) =>
    let call := ⟨n, i.connId, i.request.req, reader, verb, i.caller, o.requesterLabel i.caller⟩
    { s with brokerCalls := s.brokerCalls ++ [call] }.did [.brokered n verb]

/-- `dispatch`. -/
def dispatch (i : Inbound) : FrontendState V :=
  let n := s.requests.length
  let x := handle A o s n i
  ({ s with requests := s.requests ++ [i] }.did x.log).conclude A o n i x.result

/-- `onClientDisconnected`'s sweep. -/
def evictClient (caller : CallerToken) : FrontendState V :=
  { s with
    opOwners := fun op => (s.opOwners op).filter fun owner => owner ≠ caller
    signResults := fun op => (s.signResults op).filter fun record => record.owner ≠ caller
    confirmsInFlight := s.confirmsInFlight.filter fun c => c ≠ caller
  }.did [.evictedClient caller]

/-- `stashSignArtifact`: the store takes the artifact, and a timer its
eviction. -/
def stashSignArtifact (op : OpId) (owner : CallerToken) (artifact : SignedArtifact) :
    FrontendState V :=
  { s with signResults := Function.update s.signResults op (some ⟨artifact, owner⟩)
           delayed := s.delayed ++ [op] }.did [.stashed op owner artifact]

def evictSignResult (op : OpId) : FrontendState V :=
  { s with signResults := Function.update s.signResults op none }.did [.evictedSignResult op]

/-- The block of `makeOpFinishedSink`. -/
def prune (op : OpId) : FrontendState V :=
  { s with opOwners := Function.update s.opOwners op none }.did [.pruned op]

/-- The continuation of a confirmation. -/
def answered (ask : Ask) (verdict : PromptReplyStatus) : FrontendState V :=
  let s := { s with confirmsInFlight := s.confirmsInFlight.filter fun c => c ≠ ask.caller }
  if verdict = .ok then s.perform A o ask.n ask.connId ask.req true ask.apply
  else s.replyError A o ask.n ask.connId ask.req .notAuthorized

/-- An event of an operation: only the transport is asked. -/
def sendEvent (op : OpId) (connId : ConnId) (m : Message) (fds : List Fd)
    (carries : List Bytes) : FrontendState V :=
  (s.did [.delivered op connId m carries (s.Sends connId)]).call A o (.sendTo connId m fds)

/-- The loop's side of a posted block. The blocks of replies and events
hold the transport alone; the others do nothing without a frontend. -/
def runBlock : Block → FrontendState V
  | .reply n connId m => s.sendReplyOnLoop A o n connId m
  | .event op connId m fds carries => s.sendEvent A o op connId m fds carries
  | .answered ask verdict => if s.alive then s.answered A o ask verdict else s
  | .stash op owner artifact => if s.alive then s.stashSignArtifact op owner artifact else s
  | .prune op => if s.alive then s.prune op else s
  | .evictSignResult op => if s.alive then s.evictSignResult op else s
  | .evictClient caller => if s.alive then s.evictClient caller else s

/-- A person's answer comes to the worker: it is posted while there is a
frontend, and discarded after. -/
def answer (ask : Ask) (verdict : PromptReplyStatus) : FrontendState V :=
  let s := s.did [.answered ask.n verdict]
  if s.alive then { s with posted := s.posted ++ [.answered ask verdict] } else s

/-- What the broker answers, as `postReply` and `postErr` post it. -/
def brokerReply (req : ℕ) : Except SyncError BrokerResult → Message
  | .ok result => result.reply req
  | .error code => syncErrorReply req code

end FrontendState

/-- Whether the broker may answer a call with this. -/
def BrokerVerb.Takes (verb : BrokerVerb) : Except SyncError BrokerResult → Bool
  | .ok result => verb.Answers result
  | .error _ => true

inductive FrontendInput
  | loop (i : Input) (o : Outside)
  | answer (idx : ℕ) (verdict : PromptReplyStatus)
  | emit (op : OpId) (e : Emission) (anonFdFromBytes : Bytes → Option Fd)
  | broker (idx : ℕ) (result : Except SyncError BrokerResult)
  | due (idx : ℕ)
  | run (o : Outside)
  | destroy

namespace FrontendState

variable {V Trust : Type*} (A : Agent V Trust) (s : FrontendState V)

/-- Whether the operation the launcher names is a new one: it never uses an
id twice. -/
def LaunchesFresh (o : Outside) : Bool :=
  match o.launched with
  | .error _ => true
  | .ok (op, _) => (s.ops op).isNone

/-- The events of the transport's loop that are not the frontend's own
calls: a change of the presence and a broadcast come in blocks of their
own. -/
def Serves : LoopEvent → Bool
  | .act (.broadcastConfigChanged _) | .act (.broadcastQuiesced _) | .act (.presence _) =>
    s.transport.pump.isNone
  | .act _ => false
  | _ => true

/-- The loop serves the transport. -/
def loop (i : Input) (o : Outside) : Option (FrontendState V) :=
  if s.Serves i.event = false ∨ s.LaunchesFresh o = false then none
  else
    (s.transport.step A.wire i).map fun t =>
      let s' := s.absorb t
      if s.alive then (inbound (t.since s.transport)).foldl (fun s i => s.dispatch A o i) s'
      else s'

/-- The loop runs the block at the head of its queue: between two events,
and after `quiesceLoop` only to drop it. -/
def run (o : Outside) : Option (FrontendState V) :=
  match s.posted with
  | [] => none
  | block :: posted =>
    if s.transport.pump.isSome then none
    else
      let s := { s with posted := posted }
      some (if s.transport.loopQuiesced then s else s.runBlock A o block)

/-- **One step.** -/
def step : FrontendInput → Option (FrontendState V)
  | .loop i o => s.loop A i o
  | .answer idx verdict =>
    s.asks[idx]?.map fun ask => { s with asks := s.asks.eraseIdx idx }.answer ask verdict
  | .emit op e anonFdFromBytes => some (s.emit anonFdFromBytes op e)
  | .broker idx result =>
    (s.brokerCalls[idx]?.filter fun call => call.verb.Takes result).map fun call =>
      { s with brokerCalls := s.brokerCalls.eraseIdx idx
               posted := s.posted ++ [.reply call.n call.connId (brokerReply call.req result)] }
  | .due idx =>
    s.delayed[idx]?.map fun op =>
      { s with delayed := s.delayed.eraseIdx idx
               posted := s.posted ++ [.evictSignResult op] }
  | .run o => s.run A o
  | .destroy => some { s with alive := false }

/-- Before the first client, over a store as it was loaded. -/
def start (store : V) : FrontendState V where
  transport := .start [0, 1, frontendHandler]
  store := store
  confirmsInFlight := []
  opOwners := fun _ => none
  signResults := fun _ => none
  alive := true
  asks := []
  brokerCalls := []
  posted := []
  delayed := []
  requests := []
  ops := fun _ => none
  log := []

end FrontendState

/-- **The frontend.** -/
def frontend {V Trust : Type*} (A : Agent V Trust) :
    Machine (FrontendState V) FrontendInput where
  init s := ∃ store, s = .start store
  step s i := s.step A i

/-! A small agent to run the model on. Its store counts the trust changes,
and a request is its family, its number and an operand. -/

def plainCore : AgentCore ℕ ℕ where
  mutability key :=
    if key = "TsaUrls" ∨ key = "TslSources" then some .dbusMutableTrust
    else if key = "DefaultLevel" then some .dbusMutable
    else none
  set write changes := (true, if write.key = "DefaultLevel" then changes else changes + 1)
  resetKey key changes := (true, if key = "DefaultLevel" then changes else changes + 1)
  importMasterList _ now changes := (.ok ⟨1, 1, false, true, now, []⟩, changes + 1)
  recordCscaAnchorState _ changes := changes
  trust changes := changes
  toHex _ := ""
  kProtocolVersion := 1
  kAgentFeatures := []
  version := "1"

def plainLibrary : Library ℕ where
  view _ := ⟨"b-b", [], "", [], "", "", "", none⟩
  requestedFormatFrom format := format
  sniffFormat _ := some "pades"
  isKnownFormat _ := true
  requestedLevelFrom level := level
  resolveSignLevel level default _ := level.getD default
  isKnownLevel _ := true
  isImplementedSignLevel _ := true
  requestedPackagingFrom packaging := packaging
  defaultPackagingFor _ := "enveloped"
  isKnownPackaging _ := true
  isValidTsaUrl _ := true
  isValidVisualGeometry _ _ _ _ _ := true
  sanitizeLabel label := label
  isValidBatchDocumentCount count := count != 0
  validatePinManageRequest _ _ := none
  signMechanismFromToken _ := some 0
  decryptMechanismFromToken _ := some 0
  isValidLayoutRect _ _ _ _ := true
  layoutVisualSignature _ := ⟨0, 0, [], false⟩
  appearanceFontBytes := [0]
  kIdentityCapBit := 1
  kPkiCapBit := 2
  kPinManagementCapBit := 4
  kMaxInputBytes := 64
  kMaxMasterListBytes := 64

def plainSign : Sign where
  card := Presence.objHandle 1
  cert := "cert"
  inFd := 0
  opts := ⟨none, none, none, none, none, none, none, none, none⟩

def plainRequest : Bytes → Option Envelope
  | [0, req, op] => some ⟨req.toNat, .cancelOp op.toNat⟩
  | [1, req, op] => some ⟨req.toNat, .getSignResult op.toNat⟩
  | [2, req] => some ⟨req.toNat, .setConfig ⟨"TsaUrls", .array []⟩⟩
  | [3, req] => some ⟨req.toNat, .sign plainSign⟩
  | [4, req] => some ⟨req.toNat, .pkLogin "reader"⟩
  | _ => none

def plainAgent : Agent ℕ ℕ where
  core := plainCore
  library := plainLibrary
  wire := ⟨plainRequest, plainWire.encodeFrame, plainWire.kMaxFrameFds,
    plainWire.readerInterfaceToken⟩

/-- Every gate is open, and the launcher gives `op` to what it launches. -/
def plainOutside (op : OpId) (early : List Emission) : Outside where
  authorize _ _ := .granted
  allow _ := true
  requesterLabel _ := "client"
  readBoundedRegularFd fd _ := .ok [UInt8.ofNat fd]
  now := 0
  launched := .ok (op, early)
  credentialSnapshot _ := none
  loginActive _ _ := false
  anonFdFromBytes _ := some 9
  kernel _ := []

/-- The same, and nothing can be launched. -/
def quietOutside : Outside :=
  { plainOutside 0 [] with launched := .error .communicationError }

/-- The loop serves an event of the transport. -/
def onLoop (event : LoopEvent) (o : Outside) : FrontendInput := .loop ⟨event, fun _ => []⟩ o

/-- A client connects. -/
def connects : FrontendInput := onLoop (.accept true) quietOutside

/-- A client sends a request, with the descriptors it names. -/
def sendsRequest (c : ConnId) (body : Bytes) (fds : List Fd) (o : Outside) : List FrontendInput :=
  [onLoop (.readReady c ⟨[⟨body, fds⟩], true⟩) quietOutside, onLoop .nextFrame o,
    onLoop .nextFrame quietOutside]

/-- A client leaves. -/
def leaves (c : ConnId) : List FrontendInput :=
  [onLoop (.readReady c ⟨[], false⟩) quietOutside, onLoop .nextFrame quietOutside]

/-- A card is published, with every capability. -/
def insertsCard : FrontendInput :=
  onLoop (.act (.presence (.publishCard ⟨5, 6, 7, 0, "", ""⟩))) quietOutside

end Frontend

end LibreDarwin
