import LibreDarwin.Prompter.Model.Protocol

/-!
# The agent's prompter client

One exchange of the agent with the prompter. What the system answers at
each call is a `Peer`, fixed for the exchange: whether the socket
connects, the serving process verifies, the wait could be bounded, the
frame went out, and what came back. A call returns its result beside the
frames it handed to the socket. Zeroing the buffers is not modelled.
-/

namespace LibreDarwin

namespace Prompter

open Wire

inductive FrameError
  | wouldBlock
  | other
  deriving DecidableEq, Repr

/-- **What one exchange meets.** -/
structure Peer where
  connects : Bool
  verifies : Bool
  bounds : Bool
  sends : Bool
  received : Except FrameError Bytes

inductive BoundedReceiveError
  | timedOut
  | recvFailed
  deriving DecidableEq, Repr

/-- The reader a prompt is raised for, one fact on the core's side. -/
structure PromptReader where
  model : String := ""
  iface : ReaderInterface := .unknown
  full : String := ""

structure PromptOptions where
  title : String := ""
  description : String := ""
  requester : String := ""
  artifact : String := ""
  pinLabel : String := ""
  minLength : UInt32 := 0
  maxLength : UInt32 := 0
  artifacts : List String := []
  attempt : UInt32 := 0
  lastError : String := ""
  promptId : String := ""
  deadlineMs : UInt32 := 0
  altDeadlineMs : UInt32 := 0
  reader : PromptReader := {}

structure PromptResult where
  status : PromptStatus := .error
  secret : Bytes := []
  userMessage : String := ""
  deriving DecidableEq, Repr

structure PinChangePromptResult where
  status : PromptStatus := .error
  current : Bytes := []
  newPin : Bytes := []
  userMessage : String := ""
  deriving DecidableEq, Repr

variable (L : AgentLibrary)

def buildRequest (kind : PromptKind) (o : PromptOptions) : PromptRequest :=
  { kind := kind
    title := o.title
    description := o.description
    requester := o.requester
    artifact := o.artifact
    minLength := o.minLength
    maxLength := o.maxLength
    artifacts := o.artifacts
    attempt := o.attempt
    lastError := o.lastError
    promptId := o.promptId
    deadlineMs := o.deadlineMs
    altDeadlineMs := o.altDeadlineMs
    readerModel := o.reader.model
    readerInterface := L.readerInterfaceToken o.reader.iface
    readerFull := o.reader.full }

/-- One pair of bounds serves both roles. -/
def buildChangeRequest (o : PromptOptions) : RequestSecrets :=
  { kind := L.kKindChangePin
    title := if o.title.isEmpty ∧ ¬o.pinLabel.isEmpty then o.pinLabel else o.title
    description := o.description
    requester := o.requester
    artifact := o.artifact
    primaryMinLength := o.minLength
    primaryMaxLength := o.maxLength
    newMinLength := o.minLength
    newMaxLength := o.maxLength
    promptId := o.promptId
    deadlineMs := o.deadlineMs }

def errorResult (message : String) : PromptResult := { userMessage := message }

def changeErrorResult (message : String) : PinChangePromptResult := { userMessage := message }

def refuse (why : String) : ConfirmReply := { userMessage := why }

def recvFrameBounded (peer : Peer) : Except BoundedReceiveError Bytes :=
  match peer.received with
  | .ok body => .ok body
  | .error .wouldBlock => .error .timedOut
  | .error .other => .error .recvFailed

/-- No version, or one before this build's. -/
def TooOld (protocolVersion : Option UInt32) : Prop :=
  ∀ v, protocolVersion = some v → v < kPrompterProtocolVersion

instance (protocolVersion : Option UInt32) : Decidable (TooOld protocolVersion) :=
  match protocolVersion with
  | none => isTrue (by rintro v ⟨⟩)
  | some v => decidable_of_iff (v < kPrompterProtocolVersion)
    ⟨by rintro h w ⟨⟩; exact h, fun h => h v rfl⟩

/-- What the holder is told: an agent the prompter does not take for one
first, then whatever the prompter said. -/
def replyMessage (status : PromptReplyStatus) (userMessage : String) : String :=
  let message :=
    if status = .unauthorized then "prompter rejected the agent (unauthorized)" else ""
  if ¬userMessage.isEmpty ∧ message.isEmpty then userMessage else message

/-- `request`, from a readable reply on. -/
def takeReply (reply : PromptReply) : PromptResult :=
  if TooOld reply.protocolVersion then { status := .helperTooOld }
  else
    let status := L.promptStatusFor reply.status false
    { status := status
      secret := if status = .ok then reply.secret else []
      userMessage := replyMessage reply.status reply.userMessage }

/-- `requestPinChange`, from a readable reply on. -/
def takeChangeReply (reply : MultiPromptReply) : PinChangePromptResult :=
  if TooOld reply.protocolVersion then { status := .helperTooOld }
  else
    let status := L.promptStatusFor reply.status false
    { status := status
      current := if status = .ok then reply.primary else []
      newPin := if status = .ok then reply.secondary else []
      userMessage := replyMessage reply.status reply.userMessage }

def request (peer : Peer) (kind : PromptKind) (options : PromptOptions) :
    PromptResult × List Bytes :=
  if ¬peer.connects then (errorResult "prompter unavailable", [])
  else if ¬peer.verifies then (errorResult "prompter peer verification failed", [])
  else if ¬peer.bounds then (errorResult "prompter reply wait could not be bounded", [])
  else
    let body := L.encode (toCbor ((buildRequest L kind options).fields L))
    if ¬peer.sends then (errorResult "prompter send failed", [body])
    else
      match recvFrameBounded peer with
      | .error .timedOut => ({ status := .timeout }, [body])
      | .error .recvFailed => (errorResult "prompter recv failed", [body])
      | .ok frame =>
        match parsePromptReply L frame with
        | .error _ => (errorResult "prompter reply malformed", [body])
        | .ok reply => (takeReply L reply, [body])

def requestPinChange (peer : Peer) (options : PromptOptions) :
    PinChangePromptResult × List Bytes :=
  if ¬peer.connects then (changeErrorResult "prompter unavailable", [])
  else if ¬peer.verifies then (changeErrorResult "prompter peer verification failed", [])
  else if ¬peer.bounds then (changeErrorResult "prompter reply wait could not be bounded", [])
  else
    let body := L.encode (toCbor (buildChangeRequest L options).fields)
    if ¬peer.sends then (changeErrorResult "prompter send failed", [body])
    else
      match recvFrameBounded peer with
      | .error .timedOut => ({ status := .timeout }, [body])
      | .error .recvFailed => (changeErrorResult "prompter recv failed", [body])
      | .ok frame =>
        match parseMultiPromptReply L frame with
        | .error _ => (changeErrorResult "prompter reply malformed", [body])
        | .ok reply => (takeChangeReply L reply, [body])

/-- The wait for a confirmation has no bound. -/
def requestConfirmation (peer : Peer) (action : ConfirmAction) : ConfirmReply × List Bytes :=
  if ¬peer.connects then (refuse "prompter unavailable", [])
  else if ¬peer.verifies then (refuse "prompter peer verification failed", [])
  else
    let body := L.encode (toCbor action.fields)
    if ¬peer.sends then (refuse "prompter send failed", [body])
    else
      match peer.received with
      | .error _ => (refuse "prompter recv failed", [body])
      | .ok frame =>
        match parseConfirmReply L frame with
        | .error _ => (refuse "prompter reply malformed", [body])
        | .ok reply =>
          if TooOld reply.protocolVersion then (refuse "prompter too old to confirm", [body])
          else (reply, [body])

end Prompter

end LibreDarwin
