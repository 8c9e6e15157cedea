import Mathlib

/-!
# The messages of the agent's wire

The typed messages the transport and the frontend build, before they are
encoded. The encoding itself, the request parser and the descriptor limit
are the agent library's, and stand here as the fields of a `Wire`: what
the transport does depends on a frame's bytes and on whether a request
parses, never on how.
-/

namespace LibreDarwin

namespace Wire

/-- Bytes as they cross a socket. -/
abbrev Bytes := List UInt8

/-- An open file descriptor. -/
abbrev Fd := ℕ

/-- The opaque name a client knows an object by, `obj/<n>`. -/
abbrev Handle := String

/-- The core's name for a reader or a card; a `valid()` check of the
source is an `Option` here. -/
abbrev ObjectId := ℕ

inductive ReaderInterface
  | unknown
  | contact
  | contactless
  deriving DecidableEq, Repr

/-- The agent library's enumeration, by the enumerator's value. -/
abbrev PreReadAuth := ℕ

/-- A reader as clients see it. -/
structure ReaderState where
  handle : Handle
  name : String
  hasCard : Bool
  card : Option Handle
  model : String
  iface : ReaderInterface
  deriving DecidableEq, Repr

/-- A card as clients see it; the optional fields are absent until
known. -/
structure CardState where
  handle : Handle
  reader : Handle
  caps : ℕ
  preAuth : PreReadAuth
  cardType : Option String
  atr : Option String
  deriving DecidableEq, Repr

/-- The reply to a GetState request. -/
structure StateReply where
  readers : List ReaderState
  cards : List CardState
  deriving DecidableEq, Repr

inductive QuiesceReason
  | systemSleep
  | screenLocked
  | sessionInactive
  deriving DecidableEq, Repr

/-- The values a property push carries. -/
inductive PropValue
  | text (value : String)
  | bool (value : Bool)
  deriving DecidableEq, Repr

/-- The unsolicited messages. -/
inductive Event
  | readerAdded (reader : ReaderState)
  | readerRemoved (handle : Handle)
  | cardAdded (card : CardState)
  | cardRemoved (handle : Handle)
  | propertyChanged (handle : Handle) (iface : String) (props : List (String × PropValue))
  | configChanged (key : String)
  | agentQuiesced (reason : QuiesceReason)
  deriving DecidableEq, Repr

/-- The synchronous refusals the frontend answers with. -/
inductive SyncError
  | communicationError
  | inputTooLarge
  | invalidConfigValue
  | invalidRequest
  | masterListReplayed
  | noResult
  | notAuthorized
  | rateLimited
  | readOnlyConfig
  | unknownCard
  | unknownConfigKey
  | unsupportedOnThisCard
  | unsupportedProtocol
  | unsupportedSignatureParameter
  deriving DecidableEq, Repr

/-- What a finished operation hands its client. A photo or an artifact is
the index of the descriptor that holds it. -/
inductive OpResult
  | identity (body : Bytes)
  | certificates (certs : List Bytes)
  | photos (items : List (String × ℕ))
  | sign (artifact : ℕ)
  | signBatch (rows : List (String × ℕ))
  | credentials (body : Bytes)
  deriving DecidableEq, Repr

/-- What an accepted import of a master list is reported as; a list of
several publishers names none. Times are in seconds since the epoch. -/
structure CscaAnchorStateReply where
  anchors : ℕ
  issuers : ℕ
  replayRefusalActive : Bool
  signer : Option String
  signerPinned : Bool
  acceptedAt : ℤ
  signedAt : Option ℤ
  deriving DecidableEq, Repr

structure TslSource where
  url : String
  isLotl : Bool
  eager : Bool
  deriving DecidableEq, Repr

/-- The reply to a GetConfig request. -/
structure ConfigReply where
  defaultLevel : String
  tsaUrls : List String
  lastTsaUrl : String
  tslSources : List TslSource
  tslCacheDir : String
  defaultReason : String
  defaultLocation : String
  cscaAnchorState : Option CscaAnchorStateReply
  deriving DecidableEq, Repr

/-- What is told of a signed document. -/
structure SignMeta where
  format : String
  level : String
  tsaUsed : Bool
  chainComplete : Bool
  deriving DecidableEq, Repr

/-- A double, by its bits: nothing here computes with one. -/
abbrev Double := UInt64

/-- The reply to a LayoutVisual request. -/
structure LayoutReply where
  fontSize : Double
  lineHeight : Double
  lines : List String
  clipped : Bool
  deriving DecidableEq, Repr

inductive PublicKeyReply
  | rsa (modulus exponent : Bytes)
  | ec (crv x y : Bytes)
  deriving DecidableEq, Repr

/-- **A message the agent sends**: an event, a reply to the request
numbered `req`, or a message of an operation. -/
inductive Message
  | event (e : Event)
  | helloAck (req : ℕ) (agentVer : String) (features : List String)
  | stateReply (req : ℕ) (state : StateReply)
  | anchorState (req : ℕ) (reply : CscaAnchorStateReply)
  | ack (req : ℕ)
  | error (req : ℕ) (code : SyncError) (text : String)
  | opStarted (req : ℕ) (op : ℕ)
  | signRecovery (req : ℕ) (artifact : ℕ) (info : SignMeta)
  | config (req : ℕ) (reply : ConfigReply)
  | layout (req : ℕ) (reply : LayoutReply)
  | appearanceFont (req : ℕ) (fd : ℕ)
  | certDer (req : ℕ) (der : Bytes)
  | publicKey (req : ℕ) (key : PublicKeyReply)
  | rawSignature (req : ℕ) (sig : Bytes)
  | derivedSecret (req : ℕ) (z : Bytes)
  | loginState (req : ℕ) (active : Bool)
  | opProgress (op : ℕ) (phase : ℕ)
  | opIdentityGroup (op : ℕ) (groupKey : String) (fields : Bytes)
  | opResultReady (op : ℕ) (result : OpResult)
  | opFinished (op : ℕ) (status code : ℕ) (msgKey msgFallback : String)
  | other (body : Bytes)
  deriving DecidableEq, Repr

/-- The request a message answers. -/
def Message.req? : Message → Option ℕ
  | .helloAck req _ _ | .stateReply req _ | .anchorState req _ | .ack req | .error req _ _
  | .opStarted req _ | .signRecovery req _ _ | .config req _ | .layout req _
  | .appearanceFont req _ | .certDer req _ | .publicKey req _ | .rawSignature req _
  | .derivedSecret req _ | .loginState req _ => some req
  | _ => none

/-- The operation a message is of. -/
def Message.op? : Message → Option ℕ
  | .opStarted _ op | .opProgress op _ | .opIdentityGroup op _ _ | .opResultReady op _
  | .opFinished op _ _ _ _ => some op
  | _ => none

end Wire

open Wire

/-- **The agent library's half of the wire**: the request parser, the
framed encoding of a message that travels with a number of descriptors,
the most descriptors a frame may carry, and the token a reader's interface
is written as. -/
structure Wire (Req : Type*) where
  parseRequest : Bytes → Option Req
  encodeFrame : Message → ℕ → Bytes
  kMaxFrameFds : ℕ
  readerInterfaceToken : ReaderInterface → String

/-! A small wire to run the model on. A frame is its body behind two bytes
of header, the body's length and the number of descriptors; a body is one
byte for the kind of message, and the content of an `other`. -/

def plainBody : Message → Bytes
  | .other body => 0 :: body
  | .event _ => [1]
  | .stateReply _ _ => [2]
  | .ack _ => [3]
  | .error _ _ _ => [4]
  | .opResultReady _ _ => [5]
  | .helloAck _ _ _ => [6]
  | .anchorState _ _ => [7]
  | .opStarted _ _ => [8]
  | .signRecovery _ _ _ => [9]
  | .config _ _ => [10]
  | .layout _ _ => [11]
  | .appearanceFont _ _ => [12]
  | .certDer _ _ => [13]
  | .publicKey _ _ => [14]
  | .rawSignature _ _ => [15]
  | .derivedSecret _ _ => [16]
  | .loginState _ _ => [17]
  | .opProgress _ _ => [18]
  | .opIdentityGroup _ _ _ => [19]
  | .opFinished _ _ _ _ _ => [20]

def plainToken : ReaderInterface → String
  | .unknown => "unknown"
  | .contact => "contact"
  | .contactless => "contactless"

def plainWire : Wire Bytes where
  parseRequest body := if body.isEmpty then none else some body
  encodeFrame m fds := .ofNat (plainBody m).length :: .ofNat fds :: plainBody m
  kMaxFrameFds := 16
  readerInterfaceToken := plainToken

end LibreDarwin
