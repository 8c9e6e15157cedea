import LibreDarwin.Frontend.Model.Config

/-!
# The requests

The request families a client may send, and what the agent library does
with them: the vocabulary of the sign options, the launcher's operations,
the broker's calls. As with the config verbs, the library's half stands as
the fields of a record (`Library`), and what the frontend makes of it is
defined here: the options of a signature are resolved by
`resolveSignOptions`, for one document and for a batch alike.
-/

namespace LibreDarwin

namespace Frontend

open Wire Transport

abbrev OpId := ℕ

structure Hello where
  proto : ℕ
  wantsEvents : Bool

/-- Where a visible signature goes, and its text. -/
structure VisualSignatureOpts where
  page : ℤ
  x : Double
  y : Double
  width : Double
  height : Double
  text : String
  deriving DecidableEq, Repr

structure SignOpts where
  format : Option String
  level : Option String
  packaging : Option String
  allowExpired : Option Bool
  displayName : Option String
  reason : Option String
  location : Option String
  tsaUrl : Option String
  visualSignature : Option VisualSignatureOpts
  deriving DecidableEq, Repr

structure Sign where
  card : Handle
  cert : String
  inFd : ℕ
  opts : SignOpts

/-- One document of a batch: its name, and the index of its descriptor. -/
structure BatchEntry where
  name : String
  fdIndex : ℕ

structure SignBatch where
  card : Handle
  cert : String
  docs : List BatchEntry
  opts : SignOpts

structure ManagePin where
  card : Handle
  pinId : String
  verb : String
  activateKey : Option Bool

structure LayoutVisual where
  text : String
  x : Double
  y : Double
  width : Double
  height : Double

/-- **A request**, one constructor for each family. -/
inductive Request
  | hello (msg : Hello)
  | getState
  | readIdentity (card : Handle)
  | getPhoto (card : Handle)
  | readCertificates (card : Handle)
  | readTokenInfo (card : Handle)
  | sign (msg : Sign)
  | signBatch (msg : SignBatch)
  | listCredentials (card : Handle)
  | managePin (msg : ManagePin)
  | activateSigningKey (card : Handle)
  | getCertDer (reader : Handle) (cert : String)
  | getConfig
  | setConfig (msg : SetConfig)
  | resetConfig (msg : ResetConfig)
  | cancelOp (op : OpId)
  | getSignResult (op : OpId)
  | pkLogin (reader : Handle)
  | pkLogout (reader : Handle)
  | pkLoginState (reader : Handle)
  | pkPublicKey (reader : Handle) (cert : String)
  | pkSignRaw (reader : Handle) (cert mech : String) (data : Bytes)
  | pkDecrypt (reader : Handle) (cert mech : String) (data : Bytes)
  | pkDerive (reader : Handle) (cert : String) (data : Bytes)
  | layoutVisual (msg : LayoutVisual)
  | getAppearanceFont
  | importCscaMasterList (msg : ImportCscaMasterList)

structure Envelope where
  req : ℕ
  body : Request

/-- A request as the sink gets it. -/
structure Inbound where
  connId : ConnId
  caller : CallerToken
  request : Envelope
  fds : List Fd

/-- A visible signature as the signer gets it; the source narrows the
numbers. -/
structure VisualParams where
  page : ℤ
  x : Double
  y : Double
  width : Double
  height : Double
  text : String
  deriving DecidableEq, Repr

structure SignParams where
  certId : String
  inputDocument : Bytes
  format : String
  level : String
  packaging : String
  allowExpired : Bool
  displayName : String
  reason : String
  location : String
  tsaUrl : String
  visual : Option VisualParams
  deriving DecidableEq, Repr

structure BatchDocumentInput where
  displayName : String
  bytes : Bytes
  deriving DecidableEq, Repr

structure PinManageRequest where
  cardKey : String
  pinId : String
  verb : String
  activateKey : Bool
  deriving DecidableEq, Repr

/-- A listing of a card's credentials, which the frontend hands on
unread. -/
abbrev CredentialSnapshot := Bytes

/-- `operationTarget`: the card an operation is for, and who asked. -/
structure OperationTarget where
  readerId : ObjectId
  readerName : String
  cardKey : String
  caller : CallerToken
  requester : String
  deriving DecidableEq, Repr

/-- The operation a launch asks for. `onCardType` names the card whose type
the read publishes. -/
inductive LaunchSpec
  | readIdentity (onCardType : Handle)
  | getPhoto (onCardType : Handle)
  | readCertificates
  | readTokenInfo
  | sign (params : SignParams)
  | signBatch (params : SignParams) (documents : List BatchDocumentInput)
  | listCredentials
  | managePin (request : PinManageRequest) (snapshot : Option CredentialSnapshot)
  | activateSigningKey
  deriving DecidableEq, Repr

/-- A call of the broker that is answered later. -/
inductive BrokerVerb
  | certDer (cert : String)
  | publicKey (cert : String)
  | login
  | signRaw (cert : String) (mechanism : ℕ) (data : Bytes)
  | decrypt (cert : String) (mechanism : ℕ) (data : Bytes)
  | derive (cert : String) (peerPublicPoint : Bytes)
  deriving DecidableEq, Repr

/-- A value the broker answers with. -/
inductive BrokerResult
  | certDer (der : Bytes)
  | publicKey (key : PublicKeyReply)
  | loggedIn
  | signature (sig : Bytes)
  | plaintext (plain : Bytes)
  | secret (z : Bytes)
  deriving DecidableEq, Repr

/-- Whether a value is what a call is answered with. -/
def BrokerVerb.Answers : BrokerVerb → BrokerResult → Bool
  | .certDer _, .certDer _ | .publicKey _, .publicKey _ | .login, .loggedIn
  | .signRaw _ _ _, .signature _ | .decrypt _ _ _, .plaintext _ | .derive _ _, .secret _ => true
  | _, _ => false

/-- The reply a value makes. A decrypted text travels as a signature does. -/
def BrokerResult.reply (req : ℕ) : BrokerResult → Message
  | .certDer der => .certDer req der
  | .publicKey key => .publicKey req key
  | .loggedIn => .ack req
  | .signature sig => .rawSignature req sig
  | .plaintext plain => .rawSignature req plain
  | .secret z => .derivedSecret req z

/-- What the store serves. -/
structure ConfigView where
  defaultLevel : String
  tsaUrls : List String
  lastTsaUrl : String
  tslSources : List TslSource
  tslCacheDir : String
  defaultReason : String
  defaultLocation : String
  cscaAnchorState : Option CscaAnchorState
  deriving DecidableEq, Repr

/-- **The agent library's half of the other verbs.** -/
structure Library (V : Type*) where
  view : V → ConfigView
  requestedFormatFrom : Option String → Option String
  sniffFormat : Bytes → Option String
  isKnownFormat : String → Bool
  requestedLevelFrom : Option String → Option String
  resolveSignLevel : Option String → String → Bool → String
  isKnownLevel : String → Bool
  isImplementedSignLevel : String → Bool
  requestedPackagingFrom : Option String → Option String
  defaultPackagingFor : String → String
  isKnownPackaging : String → Bool
  isValidTsaUrl : String → Bool
  isValidVisualGeometry : ℤ → Double → Double → Double → Double → Bool
  sanitizeLabel : String → String
  isValidBatchDocumentCount : ℕ → Bool
  validatePinManageRequest : PinManageRequest → Option CredentialSnapshot → Option SyncError
  signMechanismFromToken : String → Option ℕ
  decryptMechanismFromToken : String → Option ℕ
  isValidLayoutRect : Double → Double → Double → Double → Bool
  layoutVisualSignature : LayoutVisual → LayoutReply
  appearanceFontBytes : Bytes
  kIdentityCapBit : ℕ
  kPkiCapBit : ℕ
  kPinManagementCapBit : ℕ
  kMaxInputBytes : ℕ
  kMaxMasterListBytes : ℕ

/-- `kVerbActivatePin`. -/
def kVerbActivatePin : String := "activate_pin"

structure ResolvedSignOptions where
  format : String
  level : String
  packaging : String
  allowExpired : Bool
  reason : String
  location : String
  tsaUrl : Option String
  visual : Option VisualParams
  deriving DecidableEq, Repr

section Resolve

variable {V : Type*} (L : Library V)

/-- The visible signature of a request: a PDF's, and within its page. -/
def resolveVisual (format : String) : Option VisualSignatureOpts → Except SyncError (Option VisualParams)
  | none => .ok none
  | some v =>
    if format ≠ "pades" ∨ L.isValidVisualGeometry v.page v.x v.y v.width v.height = false then
      .error .unsupportedSignatureParameter
    else .ok (some ⟨v.page, v.x, v.y, v.width, v.height, v.text⟩)

/-- Whether a request's own timestamp authority will not do: a valid URL,
and not for the baseline level. -/
def refusesTsaUrl (level : String) : Option String → Bool
  | none => false
  | some url => !L.isValidTsaUrl url || level == "b-b"

/-- `resolveSignOptions`: the options of a request as the signer takes
them. -/
def resolveSignOptions (opts : SignOpts) (sniffSource : Bytes) (config : ConfigView) :
    Except SyncError ResolvedSignOptions :=
  let requested := match L.requestedFormatFrom opts.format with
    | some format => some format
    | none => L.sniffFormat sniffSource
  match requested with
  | none => .error .unsupportedSignatureParameter
  | some format =>
    if L.isKnownFormat format = false then .error .unsupportedSignatureParameter
    else
      let hasTsa := !config.tsaUrls.isEmpty || opts.tsaUrl.isSome
      let level :=
        L.resolveSignLevel (L.requestedLevelFrom opts.level) config.defaultLevel hasTsa
      if L.isKnownLevel level = false ∨ L.isImplementedSignLevel level = false then
        .error .unsupportedSignatureParameter
      else
        let packaging :=
          (L.requestedPackagingFrom opts.packaging).getD (L.defaultPackagingFor format)
        if L.isKnownPackaging packaging = false then .error .unsupportedSignatureParameter
        else if refusesTsaUrl L level opts.tsaUrl then .error .unsupportedSignatureParameter
        else
          (resolveVisual L format opts.visualSignature).map fun visual =>
            { format := format
              level := level
              packaging := packaging
              allowExpired := opts.allowExpired.getD false
              reason := opts.reason.getD config.defaultReason
              location := opts.location.getD config.defaultLocation
              tsaUrl := opts.tsaUrl
              visual := visual }

/-- The parameters of a resolved signature. -/
def signParams (cert : String) (document : Bytes) (displayName : String)
    (resolved : ResolvedSignOptions) : SignParams where
  certId := cert
  inputDocument := document
  format := resolved.format
  level := resolved.level
  packaging := resolved.packaging
  allowExpired := resolved.allowExpired
  displayName := displayName
  reason := resolved.reason
  location := resolved.location
  tsaUrl := resolved.tsaUrl.getD ""
  visual := resolved.visual

end Resolve

/-- The reply `handleGetConfig` makes of the store. -/
def ConfigView.reply (view : ConfigView) : ConfigReply where
  defaultLevel := view.defaultLevel
  tsaUrls := view.tsaUrls
  lastTsaUrl := view.lastTsaUrl
  tslSources := view.tslSources
  tslCacheDir := view.tslCacheDir
  defaultReason := view.defaultReason
  defaultLocation := view.defaultLocation
  cscaAnchorState := view.cscaAnchorState.map toAnchorStateReply

/-- One source of `TslSources`, as it is served. -/
def servedSource (source : TslSource) : CborValue :=
  .map [("url", .text source.url), ("isLotl", .bool source.isLotl), ("eager", .bool source.eager)]

/-- The entries of that reply, as `handleGetConfig` builds them. An empty
map stands for no anchor state; another is the library's to encode. -/
def ConfigView.entries (encodeCscaAnchorState : CscaAnchorStateReply → CborValue)
    (view : ConfigView) : List (String × CborValue) :=
  [ ("DefaultLevel", .text view.defaultLevel),
    ("TsaUrls", .array (view.tsaUrls.map .text)),
    ("LastTsaUrl", .text view.lastTsaUrl),
    ("TslSources", .array (view.tslSources.map servedSource)),
    ("TslCacheDir", .text view.tslCacheDir),
    ("DefaultReason", .text view.defaultReason),
    ("DefaultLocation", .text view.defaultLocation),
    ("CscaAnchorState",
      match view.cscaAnchorState with
      | some held => encodeCscaAnchorState (toAnchorStateReply held)
      | none => .map []) ]

/-- What a request may ask the authorizer: `kActionSign`,
`kActionCredentialsManage`, `kActionConfigure`, `kActionConfigureTrust`. -/
inductive AuthAction
  | sign
  | credentialsManage
  | configure
  | configureTrust
  deriving DecidableEq, Repr

inductive AuthorizationOutcome
  | granted
  | denied
  | undecided
  deriving DecidableEq, Repr

inductive PromptReplyStatus
  | ok
  | okMrz
  | cancelled
  | timeout
  | unauthorized
  | error
  deriving DecidableEq, Repr

end Frontend

end LibreDarwin
