import LibreDarwin.Transport.Model.Connection

/-!
# The config verbs

What SetConfig, ResetConfig and ImportCscaMasterList do to the config store
once they may: the value of a request is taken apart (`configWrite`), the
store's setter is called, and the reply says how it went. The store itself,
the import of a master list and its anchor cache are the agent library's,
and stand here as the fields of an `AgentCore` over the values `V` they
keep. Each verb returns the store it leaves, the effects it had on it and
its reply (`Applied`).
-/

namespace LibreDarwin

namespace Frontend

open Wire Transport

/-- A CBOR value, as far as the config verbs look into one. -/
inductive CborValue
  | text (value : String)
  | bool (value : Bool)
  | array (items : List CborValue)
  | map (entries : List (String × CborValue))
  | other

namespace CborValue

def asText : CborValue → Option String
  | .text value => some value
  | _ => none

def asBool : CborValue → Option Bool
  | .bool value => some value
  | _ => none

def asArray : CborValue → Option (List CborValue)
  | .array items => some items
  | _ => none

def asMap : CborValue → Option (List (String × CborValue))
  | .map entries => some entries
  | _ => none

/-- `find`: the value under a key of a map. -/
def find (value : CborValue) (key : String) : Option CborValue :=
  value.asMap.bind fun entries => entries.lookup key

end CborValue

structure SetConfig where
  key : String
  value : CborValue

structure ResetConfig where
  key : String

/-- The index of the request's descriptor that holds the master list. -/
structure ImportCscaMasterList where
  list : ℕ

inductive Mutability
  | dbusMutable
  | dbusMutableTrust
  | fileOnly
  | readOnly
  deriving DecidableEq, Repr

/-- A call of one of the store's setters. -/
inductive ConfigWrite
  | setDefaultLevel (level : String)
  | setDefaultReason (reason : String)
  | setDefaultLocation (location : String)
  | setTsaUrls (urls : List String)
  | setTslSources (sources : List TslSource)
  deriving DecidableEq, Repr

/-- The key a setter writes. -/
def ConfigWrite.key : ConfigWrite → String
  | .setDefaultLevel _ => "DefaultLevel"
  | .setDefaultReason _ => "DefaultReason"
  | .setDefaultLocation _ => "DefaultLocation"
  | .setTsaUrls _ => "TsaUrls"
  | .setTslSources _ => "TslSources"

/-- The key a change of the anchors reports under. -/
def cscaAnchorState : String := "CscaAnchorState"

/-- The publisher of one accepted list. -/
structure AcceptedSigner where
  fingerprint : Bytes
  signedAt : Option ℤ
  identityEstablished : Bool
  deriving DecidableEq, Repr

/-- What an import accepted; two of its methods are fields here. -/
structure AnchorState where
  anchorCount : ℕ
  issuerCount : ℕ
  replayRefusalActive : Bool
  everyPublisherEstablished : Bool
  acceptedAt : ℤ
  signers : List AcceptedSigner
  deriving DecidableEq, Repr

/-- The record of an accepted import that the store keeps. -/
structure CscaAnchorState where
  anchors : ℕ
  issuers : ℕ
  replayRefusalActive : Bool
  signer : String
  signerPinned : Bool
  acceptedAt : ℤ
  signedAt : Option ℤ
  deriving DecidableEq, Repr

inductive ImportRefusal
  | replayed
  | cacheNotWritable
  | notAMasterList
  | empty
  | malformed
  | badSignature
  | signerChanged
  deriving DecidableEq, Repr

/-- `syncErrorFor`. -/
def syncErrorFor : ImportRefusal → SyncError
  | .replayed => .masterListReplayed
  | .cacheNotWritable => .communicationError
  | _ => .invalidRequest

/-- **The agent library's half of the config verbs**, over the values `V`
it keeps: the config store and the anchor cache. A setter returns whether
it took the value. `trust` is the part of them that the trust tier guards. -/
structure AgentCore (V Trust : Type*) where
  mutability : String → Option Mutability
  set : ConfigWrite → V → Bool × V
  resetKey : String → V → Bool × V
  importMasterList : Bytes → ℤ → V → Except ImportRefusal AnchorState × V
  recordCscaAnchorState : CscaAnchorState → V → V
  trust : V → Trust
  toHex : Bytes → String
  kProtocolVersion : ℕ
  kAgentFeatures : List String
  version : String

/-- What the store documents: the two keys with a sentence of their own are
trust-tier keys, and what is done under another key leaves the trust values
alone. -/
structure AgentCore.Lawful {V Trust : Type*} (C : AgentCore V Trust) : Prop where
  tsaUrls : C.mutability "TsaUrls" = some .dbusMutableTrust
  tslSources : C.mutability "TslSources" = some .dbusMutableTrust
  set : ∀ w v, C.mutability w.key = some .dbusMutable → C.trust (C.set w v).2 = C.trust v
  resetKey : ∀ key v, C.mutability key = some .dbusMutable →
    C.trust (C.resetKey key v).2 = C.trust v

/-- What a read of an offered descriptor gives. -/
inductive ReadOutcome
  | ok (bytes : Bytes)
  | notRegular
  | tooLarge
  | error
  deriving DecidableEq, Repr

/-- **What a config verb does to the store**: a call of a setter, a reset, a
read of an offered list, or an import, with the record the store then
keeps if the list was accepted. -/
inductive Effect
  | set (write : ConfigWrite)
  | resetKey (key : String)
  | readMasterList (list : Fd)
  | importMasterList (bytes : Bytes) (recorded : Option CscaAnchorState)
  deriving DecidableEq, Repr

/-- `syncErrorReply`: the code, and no text. -/
def syncErrorReply (req : ℕ) (code : SyncError) : Message := .error req code ""

/-- What an `apply` leaves: the store, the effects it had, and the reply. -/
structure Applied (V : Type*) where
  store : V
  effects : List Effect
  reply : Message

/-- A string value, or the refusal of any other. -/
def asString (value : CborValue) : Except SyncError String :=
  match value.asText with
  | some text => .ok text
  | none => .error .invalidConfigValue

/-- An array value, or the refusal of any other. -/
def asItems (value : CborValue) : Except SyncError (List CborValue) :=
  match value.asArray with
  | some items => .ok items
  | none => .error .invalidConfigValue

/-- A flag of a source, false when it is absent or no boolean. -/
def flag (value : CborValue) (key : String) : Bool :=
  ((value.find key).bind CborValue.asBool).getD false

/-- One item of `TslSources`: a map whose `url` is a text. -/
def tslSource (value : CborValue) : Except SyncError TslSource :=
  match (value.find "url").bind CborValue.asText with
  | some url => .ok ⟨url, flag value "isLotl", flag value "eager"⟩
  | none => .error .invalidConfigValue

/-- The cascade of `applyConfigWrite`: the setter to call. -/
def configWrite (msg : SetConfig) : Except SyncError ConfigWrite :=
  if msg.key = "DefaultLevel" then .setDefaultLevel <$> asString msg.value
  else if msg.key = "DefaultReason" then .setDefaultReason <$> asString msg.value
  else if msg.key = "DefaultLocation" then .setDefaultLocation <$> asString msg.value
  else if msg.key = "TsaUrls" then
    .setTsaUrls <$> (asItems msg.value >>= List.mapM asString)
  else if msg.key = "TslSources" then
    .setTslSources <$> (asItems msg.value >>= List.mapM tslSource)
  else .error .unknownConfigKey

/-- `recordedStateFor`: several publishers leave the signer and its time
absent. -/
def recordedStateFor (toHex : Bytes → String) (imported : AnchorState) : CscaAnchorState :=
  let only := if imported.signers.length = 1 then imported.signers.head? else none
  { anchors := imported.anchorCount
    issuers := imported.issuerCount
    replayRefusalActive := imported.replayRefusalActive
    signer := (only.map fun s => toHex s.fingerprint).getD ""
    signerPinned := imported.everyPublisherEstablished
    acceptedAt := imported.acceptedAt
    signedAt := only.bind AcceptedSigner.signedAt }

/-- `toAnchorStateReply`: an empty signer is none. -/
def toAnchorStateReply (recorded : CscaAnchorState) : CscaAnchorStateReply where
  anchors := recorded.anchors
  issuers := recorded.issuers
  replayRefusalActive := recorded.replayRefusalActive
  signer := if recorded.signer.isEmpty then none else some recorded.signer
  signerPinned := recorded.signerPinned
  acceptedAt := recorded.acceptedAt
  signedAt := recorded.signedAt

section Apply

variable {V Trust : Type*} (C : AgentCore V Trust)

/-- The reply to a change the store took, or refused. -/
def changeReply (req : ℕ) (ok : Bool) : Message :=
  if ok then .ack req else syncErrorReply req .invalidConfigValue

/-- `applyConfigWrite`. -/
def applyConfigWrite (req : ℕ) (msg : SetConfig) (store : V) : Applied V :=
  match configWrite msg with
  | .error code => ⟨store, [], syncErrorReply req code⟩
  | .ok write =>
    let r := C.set write store
    ⟨r.2, [.set write], changeReply req r.1⟩

/-- `applyConfigReset`. -/
def applyConfigReset (req : ℕ) (msg : ResetConfig) (store : V) : Applied V :=
  let r := C.resetKey msg.key store
  ⟨r.2, [.resetKey msg.key], changeReply req r.1⟩

/-- The continuation of `handleImportCscaMasterList`. -/
def applyImport (req : ℕ) (held : Fd) (read : Fd → ReadOutcome) (now : ℤ) (store : V) :
    Applied V :=
  let refuse (code : SyncError) : Applied V :=
    ⟨store, [.readMasterList held], syncErrorReply req code⟩
  match read held with
  | .notRegular => refuse .invalidRequest
  | .tooLarge => refuse .inputTooLarge
  | .error => refuse .communicationError
  | .ok bytes =>
    match C.importMasterList bytes now store with
    | (.error reason, store) =>
      ⟨store, [.readMasterList held, .importMasterList bytes none],
        syncErrorReply req (syncErrorFor reason)⟩
    | (.ok imported, store) =>
      let recorded := recordedStateFor C.toHex imported
      ⟨C.recordCscaAnchorState recorded store,
        [.readMasterList held, .importMasterList bytes (some recorded)],
        .anchorState req (toAnchorStateReply recorded)⟩

end Apply

/-- What a trust-tier verb is about to do. -/
inductive TrustChange
  | setValue
  | reset
  | importAnchors
  deriving DecidableEq, Repr

/-- The sentence a person reads, and its name in the catalogue. -/
structure TrustChangeCopy where
  key : String
  text : String
  deriving DecidableEq, Repr

/-- `describeTrustChange`. -/
def describeTrustChange (key : String) : TrustChange → Option TrustChangeCopy
  | .importAnchors =>
    some ⟨"prompter_trust_import",
      "Install the country signing certificates from the offered file, replacing the ones " ++
        "this computer checks passports against."⟩
  | .setValue | .reset =>
    if key = "TsaUrls" then
      some ⟨"prompter_trust_tsa",
        "Change the timestamping authorities this computer will use."⟩
    else if key = "TslSources" then
      some ⟨"prompter_trust_tsl",
        "Change the trusted lists this computer accepts signatures against."⟩
    else none

/-- What the confirm provider is given to ask. -/
structure ConfirmAction where
  kind : String
  title : String
  description : String
  descriptionKey : String
  requester : String
  artifact : String
  deriving DecidableEq, Repr

/-- The question `confirmThenApply` puts. -/
def confirmAction (copy : TrustChangeCopy) (requester key : String) : ConfirmAction where
  kind := "configure_trust"
  title := "Confirm trust change"
  description := copy.text
  descriptionKey := copy.key
  requester := requester
  artifact := key

end Frontend

end LibreDarwin
