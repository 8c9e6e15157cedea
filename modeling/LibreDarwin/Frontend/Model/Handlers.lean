import LibreDarwin.Common.Script
import LibreDarwin.Frontend.Model.State

/-!
# The request handlers

`dispatch` hands a request to the handler of its family. A handler asks its
gates, looks at the frontend's stores without changing them, and then does
one thing: it replies, hands the rest to the launcher, to a person or to
the broker, or changes the config. So it is a script here, which writes
down what it asked and refuses where the source replies an error and
returns; what it ends with is an `Ending`.

`n` is the request's number, `o` what the rest of the agent answers.
-/

namespace LibreDarwin

namespace Frontend

open Wire Transport Script

/-- The one thing a handler ends with. -/
inductive Ending
  | reply (m : Message) (fds : List Fd) (carries : Option (OpId × Bytes))
  | sendThenClose (m : Message)
  | hello (wantsEvents : Bool) (ack : Message)
  | launch (target : OperationTarget) (spec : LaunchSpec) (onSignArtifact : Bool)
  | confirm (x : Apply)
  | apply (x : Apply)
  | broker (reader : Handle) (verb : BrokerVerb)

/-- What a handler does for a request. -/
abbrev Handling := Script Deed SyncError Ending

/-- A reply and no descriptors. -/
def Ending.plain (m : Message) : Ending := .reply m [] none

section Gates

variable {V : Type*} (o : Outside) (s : FrontendState V) (n : ℕ) (i : Inbound)

/-- The card a request names, with the capability it needs. -/
def card (handle : Handle) (bit : ℕ) : Script Deed SyncError CardRouting := do
  let routing ← ofOption (s.transport.presence.cardRouting handle) .unknownCard
  refuseIf (routing.caps &&& bit == 0) .unsupportedOnThisCard
  pure routing

/-- What the switch over the authorizer's outcome refuses with. -/
def refusal : AuthorizationOutcome → Option SyncError
  | .granted => none
  | .denied => some .notAuthorized
  | .undecided => some .communicationError

def authorize (action : AuthAction) : Script Deed SyncError Unit := do
  tell (.authorized n action (o.authorize action i.caller))
  match refusal (o.authorize action i.caller) with
  | some code => refuse code
  | none => pure ()

/-- The budget of the verbs that sign, prompt or ask a person. -/
def limit : Script Deed SyncError Unit := do
  tell (.allowed n (o.allow i.caller))
  refuseIf (!o.allow i.caller) .rateLimited

/-- What a read of a document comes to: an empty one is refused too. -/
def documentOf : ReadOutcome → Except SyncError Bytes
  | .ok bytes => if bytes.isEmpty then .error .unsupportedSignatureParameter else .ok bytes
  | .notRegular => .error .unsupportedSignatureParameter
  | .tooLarge => .error .inputTooLarge
  | .error => .error .communicationError

/-- A document of a request, by the index of its descriptor. -/
def readDocument (kMaxInputBytes index : ℕ) : Script Deed SyncError Bytes := do
  let fd ← ofOption i.fds[index]? .unsupportedSignatureParameter
  let outcome := o.readBoundedRegularFd fd kMaxInputBytes
  tell (.readFd n fd outcome)
  ofExcept (documentOf outcome)

/-- `operationTarget`. -/
def operationTarget (routing : CardRouting) : OperationTarget where
  readerId := routing.readerId
  readerName := routing.readerName
  cardKey := routing.cardKey
  caller := i.caller
  requester := o.requesterLabel i.caller

end Gates

section Handlers

variable {V Trust : Type*} (A : Agent V Trust) (o : Outside) (s : FrontendState V)
variable (n : ℕ) (i : Inbound)

def handleHello (msg : Hello) : Handling :=
  if msg.proto ≠ A.core.kProtocolVersion then
    pure (.sendThenClose (syncErrorReply i.request.req .unsupportedProtocol))
  else
    pure (.hello msg.wantsEvents
      (.helloAck i.request.req A.core.version A.core.kAgentFeatures))

def handleGetState : Handling :=
  pure (.plain (.stateReply i.request.req s.transport.presence.currentState))

def handleLayoutVisual (msg : LayoutVisual) : Handling := do
  refuseIf (!A.library.isValidLayoutRect msg.x msg.y msg.width msg.height) .invalidRequest
  pure (.plain (.layout i.request.req (A.library.layoutVisualSignature msg)))

def handleGetAppearanceFont : Handling := do
  let fd ← ofOption (o.anonFdFromBytes A.library.appearanceFontBytes) .communicationError
  pure (.reply (.appearanceFont i.request.req 0) [fd] none)

/-- The shape the four reads share: the card has the capability, and the
operation is launched. -/
def handleRead (handle : Handle) (bit : ℕ) (spec : LaunchSpec) : Handling := do
  let routing ← card s handle bit
  pure (.launch (operationTarget o i routing) spec false)

def handleReadIdentity (handle : Handle) : Handling :=
  handleRead o s i handle A.library.kIdentityCapBit (.readIdentity handle)

def handleGetPhoto (handle : Handle) : Handling :=
  handleRead o s i handle A.library.kIdentityCapBit (.getPhoto handle)

def handleReadCertificates (handle : Handle) : Handling :=
  handleRead o s i handle A.library.kPkiCapBit .readCertificates

def handleReadTokenInfo (handle : Handle) : Handling :=
  handleRead o s i handle A.library.kPkiCapBit .readTokenInfo

/-- `handleSign`. The client is authorized and charged before a byte of the
document is read. -/
def handleSign (msg : Sign) : Handling := do
  let routing ← card s msg.card A.library.kPkiCapBit
  refuseIf msg.cert.isEmpty .unsupportedSignatureParameter
  authorize o n i .sign
  limit o n i
  let doc ← readDocument o n i A.library.kMaxInputBytes msg.inFd
  let resolved ← ofExcept (resolveSignOptions A.library msg.opts doc (A.library.view s.store))
  let displayName := A.library.sanitizeLabel (msg.opts.displayName.getD "")
  pure (.launch (operationTarget o i routing)
    (.sign (signParams msg.cert doc displayName resolved)) true)

/-- One document of a batch. -/
def readEntry (entry : BatchEntry) : Script Deed SyncError BatchDocumentInput := do
  let bytes ← readDocument o n i A.library.kMaxInputBytes entry.fdIndex
  pure ⟨A.library.sanitizeLabel entry.name, bytes⟩

/-- The bytes the format of a batch is sniffed off. -/
def sniffSource (inputs : List BatchDocumentInput) : Bytes :=
  (inputs.head?.map BatchDocumentInput.bytes).getD []

/-- `handleSignBatch`: one charge for the whole batch, and one bad document
rejects it. -/
def handleSignBatch (msg : SignBatch) : Handling := do
  let routing ← card s msg.card A.library.kPkiCapBit
  refuseIf msg.cert.isEmpty .unsupportedSignatureParameter
  authorize o n i .sign
  limit o n i
  refuseIf (!A.library.isValidBatchDocumentCount msg.docs.length) .invalidRequest
  let inputs ← forEach (readEntry A o n i) msg.docs
  let resolved ← ofExcept
    (resolveSignOptions A.library msg.opts (sniffSource inputs) (A.library.view s.store))
  pure (.launch (operationTarget o i routing)
    (.signBatch (signParams msg.cert [] "" resolved) inputs) false)

def handleListCredentials (handle : Handle) : Handling :=
  handleRead o s i handle A.library.kPinManagementCapBit .listCredentials

/-- What a request asks of the PIN manager. -/
def pinManageRequest (routing : CardRouting) (msg : ManagePin) : PinManageRequest where
  cardKey := routing.cardKey
  pinId := msg.pinId
  verb := msg.verb
  activateKey := msg.activateKey.getD false

def handleManagePin (msg : ManagePin) : Handling := do
  let routing ← card s msg.card A.library.kPinManagementCapBit
  authorize o n i .credentialsManage
  limit o n i
  refuseIf (msg.activateKey.isSome && msg.verb != kVerbActivatePin) .invalidRequest
  let request := pinManageRequest routing msg
  let snapshot := o.credentialSnapshot routing.cardKey
  match A.library.validatePinManageRequest request snapshot with
  | some code => refuse code
  | none => pure (.launch (operationTarget o i routing) (.managePin request snapshot) false)

def handleActivateSigningKey (handle : Handle) : Handling := do
  let routing ← card s handle A.library.kPinManagementCapBit
  authorize o n i .credentialsManage
  limit o n i
  pure (.launch (operationTarget o i routing) .activateSigningKey false)

/-- `handleCancel`: an operation that is unknown or not the caller's own is
acknowledged all the same. -/
def handleCancel (op : OpId) : Handling := do
  tell (.cancel n op (s.opOwners op = some i.caller))
  pure (.plain (.ack i.request.req))

/-- `handleGetSignResult`: a record of another's is no record. -/
def handleGetSignResult (op : OpId) : Handling := do
  tell (.fetched n op fun bytes => (o.anonFdFromBytes bytes).isSome)
  let record ← ofOption ((s.signResults op).filter fun record => record.owner = i.caller) .noResult
  let fd ← ofOption (o.anonFdFromBytes record.artifact.bytes) .communicationError
  pure (.reply (.signRecovery i.request.req 0 record.artifact.info) [fd]
    (some (op, record.artifact.bytes)))

def handleGetConfig : Handling :=
  pure (.plain (.config i.request.req (A.library.view s.store).reply))

/-- The body `handleSetConfig` and `handleResetConfig` share: the trust
tier is confirmed, any other key is changed at once. -/
def handleChange (x : Apply) : Handling := do
  let tier ← ofOption (A.core.mutability x.key) .unknownConfigKey
  refuseIf (tier == .fileOnly || tier == .readOnly) .readOnlyConfig
  if tier = .dbusMutableTrust then
    authorize o n i .configureTrust
    limit o n i
    pure (.confirm x)
  else
    authorize o n i .configure
    pure (.apply x)

def handleSetConfig (msg : SetConfig) : Handling := handleChange A o n i (.configWrite msg)

/-- `handleImportCscaMasterList`, up to its continuation: nothing is read
of the descriptor before a person said yes. -/
def handleImportCscaMasterList (msg : ImportCscaMasterList) : Handling := do
  authorize o n i .configureTrust
  limit o n i
  let held ← ofOption i.fds[msg.list]? .invalidRequest
  pure (.confirm (.importAnchors held))

def handleResetConfig (msg : ResetConfig) : Handling := handleChange A o n i (.configReset msg)

def handleCertDer (reader : Handle) (cert : String) : Handling :=
  pure (.broker reader (.certDer cert))

def handlePkPublicKey (reader : Handle) (cert : String) : Handling :=
  pure (.broker reader (.publicKey cert))

def handlePkLogin (reader : Handle) : Handling := pure (.broker reader .login)

def handlePkLogout : Handling := pure (.plain (.ack i.request.req))

def handlePkLoginState (reader : Handle) : Handling :=
  pure (.plain (.loginState i.request.req (o.loginActive reader i.caller)))

/-- `handlePkSignRaw`: an unknown mechanism is refused before any card is
touched. -/
def handlePkSignRaw (reader : Handle) (cert mech : String) (data : Bytes) : Handling := do
  let mechanism ← ofOption (A.library.signMechanismFromToken mech) .invalidRequest
  pure (.broker reader (.signRaw cert mechanism data))

def handlePkDecrypt (reader : Handle) (cert mech : String) (data : Bytes) : Handling := do
  let mechanism ← ofOption (A.library.decryptMechanismFromToken mech) .invalidRequest
  pure (.broker reader (.decrypt cert mechanism data))

def handlePkDerive (reader : Handle) (cert : String) (data : Bytes) : Handling :=
  pure (.broker reader (.derive cert data))

/-- The chain of `dispatch`. -/
def handle : Handling :=
  match i.request.body with
  | .hello msg => handleHello A i msg
  | .getState => handleGetState s i
  | .readIdentity card => handleReadIdentity A o s i card
  | .getPhoto card => handleGetPhoto A o s i card
  | .readCertificates card => handleReadCertificates A o s i card
  | .readTokenInfo card => handleReadTokenInfo A o s i card
  | .sign msg => handleSign A o s n i msg
  | .signBatch msg => handleSignBatch A o s n i msg
  | .listCredentials card => handleListCredentials A o s i card
  | .managePin msg => handleManagePin A o s n i msg
  | .activateSigningKey card => handleActivateSigningKey A o s n i card
  | .getCertDer reader cert => handleCertDer reader cert
  | .getConfig => handleGetConfig A s i
  | .setConfig msg => handleSetConfig A o n i msg
  | .resetConfig msg => handleResetConfig A o n i msg
  | .cancelOp op => handleCancel s n i op
  | .getSignResult op => handleGetSignResult o s n i op
  | .pkLogin reader => handlePkLogin reader
  | .pkLogout _ => handlePkLogout i
  | .pkLoginState reader => handlePkLoginState o i reader
  | .pkPublicKey reader cert => handlePkPublicKey reader cert
  | .pkSignRaw reader cert mech data => handlePkSignRaw A reader cert mech data
  | .pkDecrypt reader cert mech data => handlePkDecrypt A reader cert mech data
  | .pkDerive reader cert data => handlePkDerive reader cert data
  | .layoutVisual msg => handleLayoutVisual A i msg
  | .getAppearanceFont => handleGetAppearanceFont A o i
  | .importCscaMasterList msg => handleImportCscaMasterList o n i msg

end Handlers

end Frontend

end LibreDarwin
