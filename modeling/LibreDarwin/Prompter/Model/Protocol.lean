import LibreDarwin.Wire.Model.Cbor

/-!
# The agent's protocol with the prompter

Requests and replies, their encoders and their parsers. The agent
library's half is an `AgentLibrary`: the CBOR codec, the words of the kinds
and statuses, and the cap on a secret. An encoder lists the keys of its
message in the order the source stores them; a field at its empty value is
left out. The scrubbing of buffers is not modelled.
-/

namespace LibreDarwin

namespace Prompter

open Wire

/-- `kPrompterProtocolVersion`. -/
def kPrompterProtocolVersion : UInt32 := 2

inductive PromptKind
  | pin
  | can
  | mrz
  | changePin
  deriving DecidableEq, Repr

inductive PromptReplyStatus
  | ok
  | okMrz
  | cancelled
  | timeout
  | error
  | unauthorized
  deriving DecidableEq, Repr

inductive PrompterParseError
  | notDecodable
  | notAMap
  | missingField
  | wrongType
  | unknownMessage
  | badEnum
  | secretTooLarge
  | unsupportedVersion
  deriving DecidableEq, Repr

/-- The core's reading of a prompt's outcome; the enumerators this agent
names. -/
inductive PromptStatus
  | ok
  | cancelled
  | timeout
  | error
  | helperTooOld
  deriving DecidableEq, Repr

/-- **The agent library's half of the protocol.** The flag of
`promptStatusFor` says whether the MRZ alternative was offered. -/
structure AgentLibrary where
  decode : Bytes → Option CborValue
  encode : CborValue → Bytes
  kindToken : PromptKind → String
  kindFromToken : String → Option PromptKind
  replyStatusToken : PromptReplyStatus → String
  replyStatusFromToken : String → Option PromptReplyStatus
  readerInterfaceToken : ReaderInterface → String
  kMaxSecretBytes : ℕ
  kKindChangePin : String
  promptStatusFor : PromptReplyStatus → Bool → PromptStatus

/-! ## Messages -/

/-- `RequestSecret`. -/
structure PromptRequest where
  kind : PromptKind := .pin
  title : String := ""
  description : String := ""
  requester : String := ""
  artifact : String := ""
  minLength : UInt32 := 0
  maxLength : UInt32 := 0
  artifacts : List String := []
  attempt : UInt32 := 0
  lastError : String := ""
  promptId : String := ""
  deadlineMs : UInt32 := 0
  altDeadlineMs : UInt32 := 0
  readerModel : String := ""
  readerInterface : String := ""
  readerFull : String := ""
  deriving DecidableEq, Repr

/-- `CancelCurrent`. -/
structure PromptCancel where
  promptId : String := ""
  deriving DecidableEq, Repr

structure RequestSecrets where
  kind : String := ""
  title : String := ""
  description : String := ""
  requester : String := ""
  artifact : String := ""
  primaryMinLength : UInt32 := 0
  primaryMaxLength : UInt32 := 0
  newMinLength : UInt32 := 0
  newMaxLength : UInt32 := 0
  promptId : String := ""
  deadlineMs : UInt32 := 0
  deriving DecidableEq, Repr

structure ConfirmAction where
  kind : String := ""
  title : String := ""
  description : String := ""
  descriptionKey : String := ""
  requester : String := ""
  artifact : String := ""
  deriving DecidableEq, Repr

/-- The five requests; `Reset` carries nothing. -/
inductive PrompterRequest
  | prompt (r : PromptRequest)
  | cancel (r : PromptCancel)
  | secrets (r : RequestSecrets)
  | confirm (r : ConfirmAction)
  | reset
  deriving DecidableEq, Repr

structure PromptReply where
  status : PromptReplyStatus := .error
  secret : Bytes := []
  userMessage : String := ""
  protocolVersion : Option UInt32 := none
  deriving DecidableEq, Repr

structure MultiPromptReply where
  status : PromptReplyStatus := .error
  primary : Bytes := []
  secondary : Bytes := []
  userMessage : String := ""
  protocolVersion : Option UInt32 := none
  deriving DecidableEq, Repr

structure ConfirmReply where
  status : PromptReplyStatus := .error
  userMessage : String := ""
  protocolVersion : Option UInt32 := none
  deriving DecidableEq, Repr

structure ResetDone where
  closed : UInt32 := 0
  deriving DecidableEq, Repr

/-- What travels back. -/
inductive PrompterReply
  | secret (r : PromptReply)
  | secrets (r : MultiPromptReply)
  | confirm (r : ConfirmReply)
  | resetDone (r : ResetDone)
  deriving DecidableEq, Repr

/-! ## Encoding -/

/-- `if (!s.empty())`. -/
def text? (s : String) : Option CborValue := if s.isEmpty then none else some (.text s)

/-- `if (n != 0)`. -/
def uint? (n : UInt32) : Option CborValue := if n = 0 then none else some (.uint n.toUInt64)

/-- `if (!items.empty())`. -/
def texts? (items : List String) : Option CborValue :=
  if items.isEmpty then none else some (.array (items.map .text))

/-- `emplaceVersion`. -/
def version : String × Option CborValue := ("v", some (.uint kPrompterProtocolVersion.toUInt64))

/-- A secret travels with an Ok only. -/
def secret? (status : PromptReplyStatus) (secret : Bytes) : Option CborValue :=
  if status = .ok then some (.bytes secret) else none

variable (L : AgentLibrary)

def PromptRequest.fields (r : PromptRequest) : List (String × Option CborValue) :=
  [("t", some (.text "RequestSecret")), version, ("kind", some (.text (L.kindToken r.kind))),
   ("title", text? r.title), ("description", text? r.description),
   ("requester", text? r.requester), ("artifact", text? r.artifact),
   ("minLength", uint? r.minLength), ("maxLength", uint? r.maxLength),
   ("artifacts", texts? r.artifacts), ("attempt", uint? r.attempt),
   ("lastError", text? r.lastError), ("promptId", text? r.promptId),
   ("deadlineMs", uint? r.deadlineMs), ("altDeadlineMs", uint? r.altDeadlineMs),
   ("readerModel", text? r.readerModel),
   -- an interface that could not be determined is absence, not a word
   ("readerInterface", if r.readerInterface = L.readerInterfaceToken .unknown then none
     else text? r.readerInterface),
   ("readerFull", text? r.readerFull)]

def PromptCancel.fields (r : PromptCancel) : List (String × Option CborValue) :=
  [("t", some (.text "CancelCurrent")), version, ("promptId", text? r.promptId)]

def RequestSecrets.fields (r : RequestSecrets) : List (String × Option CborValue) :=
  [("t", some (.text "RequestSecrets")), version, ("kind", some (.text r.kind)),
   ("title", text? r.title), ("description", text? r.description),
   ("requester", text? r.requester), ("artifact", text? r.artifact),
   ("primaryMinLength", uint? r.primaryMinLength), ("primaryMaxLength", uint? r.primaryMaxLength),
   ("newMinLength", uint? r.newMinLength), ("newMaxLength", uint? r.newMaxLength),
   ("promptId", text? r.promptId), ("deadlineMs", uint? r.deadlineMs)]

def ConfirmAction.fields (r : ConfirmAction) : List (String × Option CborValue) :=
  [("t", some (.text "ConfirmAction")), version, ("kind", some (.text r.kind)),
   ("title", text? r.title), ("description", text? r.description),
   ("descriptionKey", text? r.descriptionKey), ("requester", text? r.requester),
   ("artifact", text? r.artifact)]

def resetFields : List (String × Option CborValue) := [("t", some (.text "Reset")), version]

def PromptReply.fields (r : PromptReply) : List (String × Option CborValue) :=
  [("t", some (.text "Secret")), version, ("status", some (.text (L.replyStatusToken r.status))),
   ("secret", secret? r.status r.secret), ("userMessage", text? r.userMessage)]

def MultiPromptReply.fields (r : MultiPromptReply) : List (String × Option CborValue) :=
  [("t", some (.text "Secrets")), version, ("status", some (.text (L.replyStatusToken r.status))),
   ("primary", secret? r.status r.primary), ("secondary", secret? r.status r.secondary),
   ("userMessage", text? r.userMessage)]

def ConfirmReply.fields (r : ConfirmReply) : List (String × Option CborValue) :=
  [("t", some (.text "Confirm")), version, ("status", some (.text (L.replyStatusToken r.status))),
   ("userMessage", text? r.userMessage)]

def ResetDone.fields (r : ResetDone) : List (String × Option CborValue) :=
  [("t", some (.text "ResetDone")), version, ("closed", uint? r.closed)]

def PrompterRequest.fields : PrompterRequest → List (String × Option CborValue)
  | .prompt r => r.fields L
  | .cancel r => r.fields
  | .secrets r => r.fields
  | .confirm r => r.fields
  | .reset => resetFields

def PrompterReply.fields : PrompterReply → List (String × Option CborValue)
  | .secret r => r.fields L
  | .secrets r => r.fields L
  | .confirm r => r.fields L
  | .resetDone r => r.fields

/-- `toCbor`, of any message by its fields. -/
def toCbor (fields : List (String × Option CborValue)) : CborValue := .ofMap (ofFields fields)

/-! ## Reading fields -/

/-- `topMap`. -/
def topMap (body : Bytes) : Except PrompterParseError CborMap :=
  match L.decode body with
  | none => .error .notDecodable
  | some value =>
    match value.asMap with
    | none => .error .notAMap
    | some m => .ok m

def optText (m : CborMap) (k : String) : Option String :=
  match m[k]? with
  | none => some ""
  | some value => value.asText

def optUint (m : CborMap) (k : String) : Option UInt64 :=
  match m[k]? with
  | none => some 0
  | some value => value.asUInt

def optStringArray (m : CborMap) (k : String) : Option (List String) :=
  match m[k]? with
  | none => some []
  | some value => value.asArray.bind fun items => items.mapM CborValue.asText

/-- The version the peer announced, at its full width. -/
def optAnnouncedVersion (m : CborMap) : Except PrompterParseError (Option UInt64) :=
  match m["v"]? with
  | none => .ok none
  | some value =>
    match value.asUInt with
    | none => .error .wrongType
    | some v => .ok (some v)

/-- The same as a reply holds it; one too wide to name is refused. -/
def optReplyVersion (m : CborMap) : Except PrompterParseError (Option UInt32) := do
  match ← optAnnouncedVersion m with
  | none => .ok none
  | some v => if 2 ^ 32 - 1 < v then .error .wrongType else .ok (some v.toUInt32)

structure DisplayFields where
  title : String
  description : String
  requester : String
  artifact : String
  deriving DecidableEq, Repr

def optDisplayFields (m : CborMap) : Option DisplayFields := do
  let title ← optText m "title"
  let description ← optText m "description"
  let requester ← optText m "requester"
  let artifact ← optText m "artifact"
  some ⟨title, description, requester, artifact⟩

/-- A key that must be there and be text. -/
def requiredText (m : CborMap) (k : String) : Except PrompterParseError String :=
  match m[k]?.bind CborValue.asText with
  | none => .error .missingField
  | some s => .ok s

/-- `requiredSecret`: the cap is checked before the bytes are copied. -/
def requiredSecret (m : CborMap) (k : String) : Except PrompterParseError Bytes :=
  match m[k]?.bind CborValue.asBytes with
  | none => .error .missingField
  | some b => if L.kMaxSecretBytes < b.length then .error .secretTooLarge else .ok b

/-- An optional field of another type fails the message. -/
def orWrongType {α : Type} : Option α → Except PrompterParseError α
  | none => .error .wrongType
  | some a => .ok a

/-! ## Parsing requests -/

def parseCancel (m : CborMap) : Except PrompterParseError PrompterRequest := do
  let id ← orWrongType (optText m "promptId")
  .ok (.cancel ⟨id⟩)

def parseSecrets (m : CborMap) : Except PrompterParseError PrompterRequest := do
  let kind ← requiredText m "kind"
  let display ← orWrongType (optDisplayFields m)
  let priMin ← orWrongType (optUint m "primaryMinLength")
  let priMax ← orWrongType (optUint m "primaryMaxLength")
  let newMin ← orWrongType (optUint m "newMinLength")
  let newMax ← orWrongType (optUint m "newMaxLength")
  let secretsPromptId ← orWrongType (optText m "promptId")
  let secretsDeadline ← orWrongType (optUint m "deadlineMs")
  .ok (.secrets
    { kind := kind
      title := display.title
      description := display.description
      requester := display.requester
      artifact := display.artifact
      primaryMinLength := priMin.toUInt32
      primaryMaxLength := priMax.toUInt32
      newMinLength := newMin.toUInt32
      newMaxLength := newMax.toUInt32
      promptId := secretsPromptId
      deadlineMs := secretsDeadline.toUInt32 })

def parseConfirm (m : CborMap) : Except PrompterParseError PrompterRequest := do
  let kind ← requiredText m "kind"
  let display ← orWrongType (optDisplayFields m)
  let descriptionKey ← orWrongType (optText m "descriptionKey")
  .ok (.confirm
    { kind := kind
      title := display.title
      description := display.description
      descriptionKey := descriptionKey
      requester := display.requester
      artifact := display.artifact })

/-- The kind of a `RequestSecret`: one secret, so not the PIN pair. -/
def secretKind (kindStr : String) : Except PrompterParseError PromptKind :=
  match L.kindFromToken kindStr with
  | none => .error .badEnum
  | some kind => if kind = .changePin then .error .badEnum else .ok kind

def parsePrompt (m : CborMap) : Except PrompterParseError PrompterRequest := do
  let kindStr ← requiredText m "kind"
  let kind ← secretKind L kindStr
  let display ← orWrongType (optDisplayFields m)
  let minLen ← orWrongType (optUint m "minLength")
  let maxLen ← orWrongType (optUint m "maxLength")
  let artifacts ← orWrongType (optStringArray m "artifacts")
  let attempt ← orWrongType (optUint m "attempt")
  let lastError ← orWrongType (optText m "lastError")
  let promptId ← orWrongType (optText m "promptId")
  let deadline ← orWrongType (optUint m "deadlineMs")
  let altDeadline ← orWrongType (optUint m "altDeadlineMs")
  let readerModel ← orWrongType (optText m "readerModel")
  let readerInterface ← orWrongType (optText m "readerInterface")
  let readerFull ← orWrongType (optText m "readerFull")
  .ok (.prompt
    { kind := kind
      title := display.title
      description := display.description
      requester := display.requester
      artifact := display.artifact
      minLength := minLen.toUInt32
      maxLength := maxLen.toUInt32
      artifacts := artifacts
      attempt := attempt.toUInt32
      lastError := lastError
      promptId := promptId
      deadlineMs := deadline.toUInt32
      altDeadlineMs := altDeadline.toUInt32
      readerModel := readerModel
      readerInterface := readerInterface
      readerFull := readerFull })

/-- The message a tag names. -/
def parseTagged (m : CborMap) (t : String) : Except PrompterParseError PrompterRequest :=
  if t = "Reset" then .ok .reset
  else if t = "CancelCurrent" then parseCancel m
  else if t = "RequestSecrets" then parseSecrets m
  else if t = "ConfirmAction" then parseConfirm m
  else if t = "RequestSecret" then parsePrompt L m
  else .error .unknownMessage

/-- The version is judged before the tag is read. -/
def parseMap (m : CborMap) : Except PrompterParseError PrompterRequest := do
  let announced ← optAnnouncedVersion m
  if kPrompterProtocolVersion.toUInt64 < announced.getD 0 then .error .unsupportedVersion
  else do
    let t ← requiredText m "t"
    parseTagged L m t

def parsePrompterRequest (body : Bytes) : Except PrompterParseError PrompterRequest := do
  let m ← topMap L body
  parseMap L m

/-! ## Parsing replies -/

/-- The status word of a reply. -/
def replyStatus (m : CborMap) : Except PrompterParseError PromptReplyStatus := do
  let word ← requiredText m "status"
  match L.replyStatusFromToken word with
  | none => .error .badEnum
  | some status => .ok status

/-- `if (reply.status == Ok)`. -/
def okSecret (m : CborMap) (status : PromptReplyStatus) (k : String) :
    Except PrompterParseError Bytes :=
  if status = .ok then requiredSecret L m k else .ok []

def parsePromptReply (body : Bytes) : Except PrompterParseError PromptReply := do
  let m ← topMap L body
  let status ← replyStatus L m
  let announced ← optReplyVersion m
  let secret ← okSecret L m status "secret"
  let msg ← orWrongType (optText m "userMessage")
  .ok { status := status, secret := secret, userMessage := msg, protocolVersion := announced }

def parseConfirmReply (body : Bytes) : Except PrompterParseError ConfirmReply := do
  let m ← topMap L body
  -- a message that carries a secret is not a confirmation
  if "secret" ∈ m ∨ "primary" ∈ m ∨ "secondary" ∈ m then .error .unknownMessage
  else do
    let status ← replyStatus L m
    let msg ← orWrongType (optText m "userMessage")
    let announced ← optReplyVersion m
    .ok { status := status, userMessage := msg, protocolVersion := announced }

def parseResetDone (body : Bytes) : Except PrompterParseError ResetDone := do
  let m ← topMap L body
  let t ← requiredText m "t"
  if t ≠ "ResetDone" then .error .unknownMessage
  else do
    let closed ← orWrongType (optUint m "closed")
    .ok { closed := closed.toUInt32 }

def parseMultiPromptReply (body : Bytes) : Except PrompterParseError MultiPromptReply := do
  let m ← topMap L body
  let status ← replyStatus L m
  let announced ← optReplyVersion m
  let primary ← okSecret L m status "primary"
  let secondary ← okSecret L m status "secondary"
  let msg ← orWrongType (optText m "userMessage")
  .ok
    { status := status, primary := primary, secondary := secondary, userMessage := msg,
      protocolVersion := announced }

end Prompter

end LibreDarwin
