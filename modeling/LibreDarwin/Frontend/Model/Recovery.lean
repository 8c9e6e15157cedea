import LibreDarwin.Frontend.Model.State

/-!
# The recovery store of one client

What the owner-scoped stores are for, said of one client at a time: an
agent that serves nobody else (`Solo`) keeps the client's signed documents
and answers its recoveries and its cancels. Its inputs are the client's
dealings, which the client asks for or which befall the documents of its
own operations. The frontend's log, read for one connection, has such
dealings and such answers.
-/

namespace LibreDarwin

namespace Frontend

open Wire Transport

/-- Whether a request names an operation. -/
def Request.NamesOp : Request → Bool
  | .cancelOp _ | .getSignResult _ => true
  | _ => false

/-- An answer, and the document its descriptor is of. -/
abbrev Recovery := Message × Option (OpId × Bytes)

/-- **What a client has to do with its operations' documents.** -/
inductive Dealing
  | cancelOp (req : ℕ) (op : OpId)
  | getSignResult (req : ℕ) (op : OpId) (fits : Bytes → Bool)
  | stashed (op : OpId) (artifact : SignedArtifact)
  | expired (op : OpId)
  | evicted

/-- **An agent with one client**: what it keeps, and what it answered. -/
structure Solo where
  documents : OpId → Option SignedArtifact
  answers : List Recovery

namespace Solo

variable (p : Solo)

def fresh : Solo := ⟨fun _ => none, []⟩

def answer (a : Recovery) : Solo := { p with answers := p.answers ++ [a] }

/-- The answer to a recovery: the document, or that there is none. -/
def recover (req : ℕ) (op : OpId) (fits : Bytes → Bool) : Recovery :=
  match p.documents op with
  | none => (syncErrorReply req .noResult, none)
  | some artifact =>
    if fits artifact.bytes then (.signRecovery req 0 artifact.info, some (op, artifact.bytes))
    else (syncErrorReply req .communicationError, none)

/-- A cancel is acknowledged, whatever it names. -/
def next : Dealing → Solo
  | .cancelOp req _ => p.answer (.ack req, none)
  | .getSignResult req op fits => p.answer (p.recover req op fits)
  | .stashed op artifact => { p with documents := Function.update p.documents op (some artifact) }
  | .expired op => { p with documents := Function.update p.documents op none }
  | .evicted => { p with documents := fun _ => none }

def replay (dealings : List Dealing) : Solo := dealings.foldl next p

end Solo

namespace FrontendState

variable {V : Type*} (s : FrontendState V) (c : ConnId)

/-- A request of the connection. -/
def requestOf (n : ℕ) : Option Inbound := s.requests[n]?.filter fun i => i.connId = c

/-- What a deed is to the connection's client. -/
def dealing? : Deed → Option Dealing
  | .cancel n op _ => (s.requestOf c n).map fun i => .cancelOp i.request.req op
  | .fetched n op fits => (s.requestOf c n).map fun i => .getSignResult i.request.req op fits
  | .stashed op owner artifact =>
    if owner = callerToken c then some (.stashed op artifact) else none
  | .evictedSignResult op => ((s.ops op).filter fun x => x.connId = c).map fun _ => .expired op
  | .evictedClient caller => if caller = callerToken c then some .evicted else none
  | _ => none

/-- **The client's own history**, with nothing in it of what others
started. -/
def dealings : List Dealing := s.log.filterMap (s.dealing? c)

/-- Whether request `n` names an operation. -/
def namesOp (n : ℕ) : Bool := s.requests[n]?.any fun i => i.request.body.NamesOp

def recovery? : Deed → Option Recovery
  | .replied n connId m carries true =>
    if connId = c ∧ s.namesOp n = true then some (m, carries) else none
  | _ => none

/-- **What the connection received** for its recoveries and cancels. -/
def recoveries : List Recovery := s.log.filterMap (s.recovery? c)

/-- The documents kept for the connection's client. -/
def documentsOf (op : OpId) : Option SignedArtifact :=
  ((s.signResults op).filter fun record => record.owner = callerToken c).map SignRecord.artifact

/-- The frontend, as one connection sees it. -/
def solo : Solo := ⟨s.documentsOf c, s.recoveries c⟩

/-- The request that started an operation. -/
def starter? (op : OpId) : Option Inbound := (s.ops op).bind fun x => s.requests[x.n]?

/-- The document of an operation, by its bytes, and the connection whose
signature it is. -/
def SignedFor (op : OpId) (bytes : Bytes) (c : ConnId) : Prop :=
  ∃ i msg info, s.starter? op = some i ∧ i.connId = c ∧ i.request.body = .sign msg ∧
    .stashed op (callerToken c) ⟨bytes, info⟩ ∈ s.log

end FrontendState

end Frontend

end LibreDarwin
