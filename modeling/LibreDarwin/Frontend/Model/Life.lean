import LibreDarwin.Frontend.Model.Frontend

/-!
# The life of a request

What may be done for one request, from its dispatch to its reply, as a
machine of its own whose inputs are deeds. It is not read off the handlers:
it says what they are for. A family that is gated asks the authorizer for
the gate's action, then the limiter, and only then reads, asks a person or
launches; a document that will not do, or a gate that does not open, leaves
nothing but the reply; a trust change is made after a person's yes; and the
reply is the last thing, on the request's connection, under its number.
-/

namespace LibreDarwin

namespace Frontend

open Wire Transport

/-- How far a request is. `reads` are the documents read for it. -/
inductive Phase
  | entered
  | authorized (action : AuthAction)
  | allowed (action : AuthAction) (reads : List (Fd × Bytes))
  | refused
  | launched (op : OpId)
  | asked
  | answered (verdict : PromptReplyStatus)
  | applied
  | brokered
  | over
  deriving DecidableEq, Repr

/-- The request a deed is done for. -/
def Deed.number? : Deed → Option ℕ
  | .authorized n _ _ | .allowed n _ | .readFd n _ _ | .cancel n _ _ | .fetched n _ _
  | .launched n _ _ _ | .asked n _ _ _ | .answered n _ | .applied n _ _ _ _ | .brokered n _
  | .replied n _ _ _ _ => some n
  | _ => none

/-- The change a config verb asks for. -/
def Inbound.change? (i : Inbound) : Option Apply :=
  match i.request.body with
  | .setConfig msg => some (.configWrite msg)
  | .resetConfig msg => some (.configReset msg)
  | .importCscaMasterList msg => i.fds[msg.list]?.map .importAnchors
  | _ => none

/-- The documents a signing request names. -/
def Inbound.documents (i : Inbound) : List (Option Fd) :=
  match i.request.body with
  | .sign msg => [i.fds[msg.inFd]?]
  | .signBatch msg => msg.docs.map fun entry => i.fds[entry.fdIndex]?
  | _ => []

/-- The documents an operation is launched on. -/
def LaunchSpec.documents : LaunchSpec → List Bytes
  | .sign params => [params.inputDocument]
  | .signBatch _ documents => documents.map BatchDocumentInput.bytes
  | _ => []

/-- The call of a setter that a value makes, if it is well formed. -/
def SetConfig.effects (msg : SetConfig) : List Effect :=
  match Frontend.configWrite msg with
  | .ok write => [.set write]
  | .error _ => []

/-- What a change may do to the store. -/
def Apply.Does : Apply → List Effect → Prop
  | .configWrite msg, effects => effects = msg.effects
  | .configReset msg, effects => effects = [.resetKey msg.key]
  | .importAnchors held, [.readMasterList list] => list = held
  | .importAnchors held, [.readMasterList list, .importMasterList _ _] => list = held
  | .importAnchors _, _ => False

instance (x : Apply) (effects : List Effect) : Decidable (x.Does effects) := by
  unfold Apply.Does
  split <;> infer_instance

section Life

variable {V Trust : Type*} (C : AgentCore V Trust) (i : Inbound)

/-- The action a key's change has to be granted and confirmed under. -/
def trustGate (key : String) : Option AuthAction :=
  if C.mutability key = some .dbusMutableTrust then some .configureTrust else none

/-- The action a gated family has to be granted. -/
def Request.gate : Request → Option AuthAction
  | .sign _ | .signBatch _ => some .sign
  | .managePin _ | .activateSigningKey _ => some .credentialsManage
  | .importCscaMasterList _ => some .configureTrust
  | .setConfig msg => trustGate C msg.key
  | .resetConfig msg => trustGate C msg.key
  | _ => none

namespace Phase

/-- Whether an operation may be launched: nothing is gated, or the gates
are open and the documents read are those the request names. -/
def Launches (spec : LaunchSpec) : Phase → Prop
  | .entered => i.request.body.gate C = none
  | .allowed action reads =>
    i.request.body.gate C = some action ∧ (reads.map fun r => some r.1) = i.documents ∧
      reads.map Prod.snd = spec.documents
  | _ => False

instance (spec : LaunchSpec) (φ : Phase) : Decidable (φ.Launches C i spec) := by
  unfold Launches
  split <;> infer_instance

/-- Whether a reply may come. What was launched is told, a yes is acted on
first, and no other reply names an operation. -/
def Replies (m : Message) : Phase → Prop
  | .asked | .over => False
  | .launched op => m = .opStarted i.request.req op
  | .answered verdict => verdict ≠ .ok ∧ m.op? = none
  | _ => m.op? = none

instance (m : Message) (φ : Phase) : Decidable (φ.Replies i m) := by
  unfold Replies
  split <;> infer_instance

/-- Where a change may be made: a trust change after a yes, any other one
after `configure` was granted. -/
def Applies (confirmed : Bool) (φ : Phase) : Prop :=
  if confirmed then φ = .answered .ok
  else φ = .authorized .configure ∧
    i.change?.map (fun x => C.mutability x.key) = some (some .dbusMutable)

instance (confirmed : Bool) (φ : Phase) : Decidable (φ.Applies C i confirmed) := by
  unfold Applies
  infer_instance

/-- What a deed makes of a phase. -/
def next (φ : Phase) : Deed → Option Phase
  | .authorized _ action outcome =>
    if φ = .entered ∧ action = (i.request.body.gate C).getD .configure then
      some (if outcome = .granted then .authorized action else .refused)
    else none
  | .allowed _ ok =>
    match φ with
    | .authorized action =>
      if i.request.body.gate C = some action then some (if ok then .allowed action [] else .refused)
      else none
    | _ => none
  | .readFd _ fd outcome =>
    match φ with
    | .allowed action reads =>
      match documentOf outcome with
      | .ok bytes => some (.allowed action (reads ++ [(fd, bytes)]))
      | .error _ => some .refused
    | _ => none
  | .cancel _ _ _ | .fetched _ _ _ => if φ = .entered then some .entered else none
  | .launched _ op _ spec => if φ.Launches C i spec then some (.launched op) else none
  | .asked _ connId req key =>
    if φ = .allowed .configureTrust [] ∧ connId = i.connId ∧ req = i.request.req ∧
        i.change?.map Apply.key = some key then
      some .asked
    else none
  | .answered _ verdict => if φ = .asked then some (.answered verdict) else none
  | .applied _ connId req confirmed effects =>
    if φ.Applies C i confirmed ∧ connId = i.connId ∧ req = i.request.req ∧
        ∃ x ∈ i.change?, x.Does effects then
      some .applied
    else none
  | .brokered _ _ => if φ = .entered then some .brokered else none
  | .replied _ connId m _ _ =>
    if φ.Replies i m ∧ connId = i.connId ∧ m.req? = some i.request.req then some .over else none
  | _ => none

end Phase

/-- **The life of request `n`.** -/
def life (n : ℕ) : Machine Phase Deed where
  init φ := φ = .entered
  step φ d := if d.number? = some n then φ.next C i d else none

end Life

end Frontend

end LibreDarwin
