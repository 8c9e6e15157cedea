import LibreDarwin.Common.Script
import LibreDarwin.Frontend.Model.State

/-!
# How a result is emitted

`SocketOperationChannel::emitResult`, with every place where it can fail.
It runs on the worker; what it posts to the loop stays posted, whatever
comes after. So it is a script that writes down what it posts, and refuses
where the source returns false: a descriptor could not be had, or
something was thrown. `δ` is what a descriptor is.
-/

namespace LibreDarwin

namespace SocketOperationChannel

open Wire Transport Script
open Frontend (SignedArtifact OpId)

/-! ## Results -/

structure PhotoSnapshot where
  key : String
  bytes : Bytes
  deriving DecidableEq, Repr

structure BatchSignedRow where
  displayName : String
  bytes : Bytes
  info : SignMeta
  code : ℕ
  deriving DecidableEq, Repr

/-- `Ops::ResultPayload`. What goes inline is given encoded. -/
inductive Payload
  | cardRead (identity : Bytes)
  | certs (certs : List Bytes)
  | photos (photos : List PhotoSnapshot)
  | artifact (artifact : SignedArtifact)
  | batch (rows : List BatchSignedRow)
  | credentials (body : Bytes)
  deriving DecidableEq, Repr

/-- An item of the wire, and the index of its descriptor. -/
structure PhotoItem where
  key : String
  photo : ℕ
  deriving DecidableEq, Repr

structure SignBatchRow where
  displayName : String
  artifact : ℕ
  info : SignMeta
  code : ℕ
  deriving DecidableEq, Repr

/-- `OpResultReady::result`. -/
inductive WireResult
  | identity (body : Bytes)
  | certificates (certs : List Bytes)
  | photos (items : List PhotoItem)
  | sign (artifact : ℕ) (info : SignMeta)
  | signBatch (rows : List SignBatchRow)
  | credentials (body : Bytes)
  deriving DecidableEq, Repr

/-! ## The channel -/

/-- What a channel is of, and whether it has a sink for a signed
artifact. -/
structure Channel where
  connId : ConnId
  opId : OpId
  onSignArtifact : Bool
  deriving DecidableEq, Repr

/-- What is posted to the loop. -/
inductive Posted (δ : Type*)
  | stash (opId : OpId) (artifact : SignedArtifact)
  | sendTo (connId : ConnId) (opId : OpId) (result : WireResult) (fds : List δ)

/-- The places where something can be thrown. -/
inductive EmitStep
  | convert
  | materialize (index : ℕ)
  | collect (index : ℕ)
  | stash
  | encode
  | share
  | post
  deriving DecidableEq, Repr

abbrev Emitting (δ : Type) := Script (Posted δ) Unit

section Emit

variable {δ ι ω : Type} (throws : EmitStep → Bool) (anonFd : ℕ → Bytes → Option δ)

/-- Whatever a step throws is caught, and `emitResult` is false. -/
def mayThrow (step : EmitStep) : Emitting δ Unit := refuseIf (throws step) ()

/-- A descriptor of some bytes, the next after those there are. -/
def materializeAt (index : ℕ) (bytes : Bytes) : Emitting δ δ := do
  mayThrow throws (.materialize index)
  let fd ← ofOption (anonFd index bytes) ()
  mayThrow throws (.collect index)
  pure fd

/-- The loop over photos or rows: every item gets a descriptor, and on the
wire the index it has in `fds`. -/
def materializeAll (bytes : ι → Bytes) (item : ι → ℕ → ω) :
    List δ → List ι → Emitting δ (List ω × List δ)
  | fds, [] => pure ([], fds)
  | fds, x :: xs => do
    let fd ← materializeAt throws anonFd fds.length (bytes x)
    let rest ← materializeAll bytes item (fds ++ [fd]) xs
    pure (item x fds.length :: rest.1, rest.2)

/-- An arm whose result goes inline. -/
def inline (result : WireResult) : Emitting δ (WireResult × List δ) := do
  mayThrow throws .convert
  pure (result, [])

variable (channel : Channel)

/-- The sink of a signed artifact, which posts the record. -/
def stashArtifact (artifact : SignedArtifact) : Emitting δ Unit :=
  if channel.onSignArtifact then do
    mayThrow throws .stash
    tell (.stash channel.opId artifact)
  else pure ()

/-- The visit of the payload. -/
def visit : Payload → Emitting δ (WireResult × List δ)
  | .cardRead identity => inline throws (.identity identity)
  | .certs certs => inline throws (.certificates certs)
  | .photos photos => do
    let out ← materializeAll throws anonFd PhotoSnapshot.bytes (fun p i => PhotoItem.mk p.key i) []
      photos
    pure (.photos out.1, out.2)
  | .artifact artifact => do
    let fd ← materializeAt throws anonFd 0 artifact.bytes
    stashArtifact throws channel artifact
    pure (.sign 0 artifact.info, [fd])
  | .batch rows => do
    let out ← materializeAll throws anonFd BatchSignedRow.bytes
      (fun r i => SignBatchRow.mk r.displayName i r.info r.code) [] rows
    pure (.signBatch out.1, out.2)
  | .credentials body => inline throws (.credentials body)

/-- What comes after the visit: the event is encoded and posted. -/
def postResult (result : WireResult) (fds : List δ) : Emitting δ Unit := do
  mayThrow throws .encode
  mayThrow throws .share
  mayThrow throws .post
  tell (.sendTo channel.connId channel.opId result fds)

/-- `emitResult`. -/
def emitResult (payload : Payload) : Emitting δ Unit := do
  let out ← visit throws anonFd channel payload
  postResult throws channel out.1 out.2

end Emit

end SocketOperationChannel

end LibreDarwin
