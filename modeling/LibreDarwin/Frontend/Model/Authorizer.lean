import LibreDarwin.Frontend.Model.Frontend

/-!
# The authorizer

`SecCodeAuthorizer`, and the label a client is shown under, both read off
the credentials the transport captured when it accepted the client. A
connection's id is used once, so these are a function of the id (`peer`);
what the system says of credentials is the library's
(`resolvePeerCodeSigning`, `label`).

`peers` is the frontend with this authorizer in the place of any other: the
answers a dispatch gets of it are worked out on the transport's table as it
is then.
-/

namespace LibreDarwin

namespace Frontend

open Wire Transport

/-- What a peer's own signature claims, and whether its code meets the
designated requirement, where one was asked for. -/
structure PeerCodeSigning where
  signingId : Option String
  appGroups : List String
  designatedRequirementValid : Option Bool
  deriving DecidableEq, Repr

/-- `SecCodeAuthorizer::Policy`. -/
structure Policy where
  trustTierSigningIds : List String
  allowedSigningIds : List String
  requiredAppGroup : Option String
  teamId : Option String
  deriving DecidableEq, Repr

/-- The names of the actions. -/
structure ActionIds where
  kActionConfigure : String
  kActionSign : String
  kActionPkcs11Login : String
  kActionCredentialsManage : String
  kActionConfigureTrust : String

/-- The default actions. -/
def ActionIds.defaults (ids : ActionIds) : List String :=
  [ids.kActionConfigure, ids.kActionSign, ids.kActionPkcs11Login, ids.kActionCredentialsManage]

/-- The name the frontend asks under. -/
def AuthAction.name (ids : ActionIds) : AuthAction → String
  | .sign => ids.kActionSign
  | .credentialsManage => ids.kActionCredentialsManage
  | .configure => ids.kActionConfigure
  | .configureTrust => ids.kActionConfigureTrust

/-- **What judges the peers.** -/
structure Gatekeeper (Creds : Type*) where
  ids : ActionIds
  policy : Policy
  resolvePeerCodeSigning : Creds → Option String → PeerCodeSigning
  label : Creds → String
  peer : ConnId → Creds

/-- `requesterLabelFor`. -/
def requesterLabelFor (sanitizeLabel : String → String) (signingId : Option String)
    (fallback : String) : String :=
  match signingId with
  | none => sanitizeLabel fallback
  | some signingId => if signingId.isEmpty then sanitizeLabel fallback else sanitizeLabel signingId

section Gatekeeper

variable {Creds : Type*} (G : Gatekeeper Creds)

namespace Gatekeeper

/-- `signingIdAllowed`: no list is honoured without the group. -/
def signingIdAllowed (creds : Creds) (list : List String) : Bool :=
  match G.policy.requiredAppGroup with
  | none => false
  | some group =>
    let peer := G.resolvePeerCodeSigning creds G.policy.teamId
    if G.policy.teamId.isSome && peer.designatedRequirementValid != some true then false
    else
      match peer.signingId with
      | none => false
      | some signingId => list.contains signingId && peer.appGroups.contains group

/-- `authorize`: an empty list narrows nothing. -/
def authorize (actionId : String) (creds : Option Creds) : AuthorizationOutcome :=
  let isDefault := G.ids.defaults.contains actionId
  let isTrust := actionId == G.ids.kActionConfigureTrust
  if !isDefault && !isTrust then .denied
  else
    match creds with
    | none => .denied
    | some creds =>
      if isTrust then
        if G.policy.trustTierSigningIds.isEmpty then .granted
        else if G.signingIdAllowed creds G.policy.trustTierSigningIds then .granted
        else .denied
      else if G.policy.allowedSigningIds.isEmpty then .granted
      else if G.signingIdAllowed creds G.policy.allowedSigningIds then .granted
      else .denied

/-- `credentialsFor`. -/
def credentialsFor {Req : Type*} (s : State Req) (caller : CallerToken) : Option Creds :=
  (s.connections.toList.find? fun e => e.2.caller = caller).map fun e => G.peer e.1

/-- What a connected client is shown as. -/
def shownAs (sanitizeLabel : String → String) (creds : Creds) : String :=
  requesterLabelFor sanitizeLabel (G.resolvePeerCodeSigning creds none).signingId (G.label creds)

/-- `requesterLabel`. -/
def requesterLabel {Req : Type*} (sanitizeLabel : String → String) (s : State Req)
    (caller : CallerToken) : String :=
  match G.credentialsFor s caller with
  | none => ""
  | some creds => G.shownAs sanitizeLabel creds

/-- The answers of the rest, with those about the peers. -/
def outside {Req : Type*} (sanitizeLabel : String → String) (s : State Req) (o : Outside) :
    Outside :=
  { o with
    authorize := fun action caller => G.authorize (action.name G.ids) (G.credentialsFor s caller)
    requesterLabel := G.requesterLabel sanitizeLabel s }

end Gatekeeper

/-- The input with the gatekeeper's answers: a request is handled after the
transport's step. -/
def judged {V Trust : Type*} (A : Agent V Trust) (s : FrontendState V) :
    FrontendInput → FrontendInput
  | .loop event o =>
    match s.transport.step A.wire event with
    | none => .loop event o
    | some t => .loop event (G.outside A.library.sanitizeLabel t o)
  | input => input

/-- **The frontend and its authorizer.** -/
def peers {V Trust : Type*} (A : Agent V Trust) :
    Machine (FrontendState V) FrontendInput where
  init s := ∃ store, s = .start store
  step s input := s.step A (judged G A s input)

end Gatekeeper

end Frontend

end LibreDarwin
