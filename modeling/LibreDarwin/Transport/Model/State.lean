import LibreDarwin.Transport.Model.Connection
import LibreDarwin.Transport.Model.Presence

/-!
# The connection table

The loop's state and the operations on it: closing a connection, sending
to one, broadcasting. Beside what the source keeps, the state has a trace:
what crossed the transport's boundary, in order, each entry under the
connection it is about. Nothing the transport does reads it.
-/

namespace LibreDarwin

namespace Transport

open Wire Std

/-- A frame the reassembler returned. -/
structure WireFrame where
  body : Bytes
  fds : List Fd
  deriving DecidableEq, Repr

/-- What one `pump` returned: its frames, and whether the stream goes on
(`PumpStatus::Ok`). -/
structure Pumped where
  frames : List WireFrame
  ok : Bool
  deriving DecidableEq, Repr

/-- A registered disconnect handler. -/
abbrev HandlerId := ℕ

/-- What crosses the transport's boundary on a connection's account. -/
inductive Obs (Req : Type*)
  | connected
  | delivered (frame : WireFrame)
  | request (caller : CallerToken) (req : Req) (fds : List Fd)
  | enqueued (m : Message) (frame : Chunk)
  | io (io : Io)
  | lastFrame
  | closed (why : CloseReason)
  | disconnected (handler : HandlerId) (caller : CallerToken)
  deriving DecidableEq, Repr

/-- What a close looks like from outside: the connection is gone, then
every handler hears of it, in registration order. -/
def farewell {Req : Type*} (why : CloseReason) (handlers : List HandlerId)
    (caller : CallerToken) : List (Obs Req) :=
  .closed why :: handlers.map fun h => .disconnected h caller

/-- `onReadReady` in progress: the frames not looked at yet. `serving`
while the request sink is at work on one, which is when the sink's own
calls happen. -/
structure Pumping where
  conn : ConnId
  caller : CallerToken
  frames : List WireFrame
  ok : Bool
  serving : Bool
  deriving DecidableEq, Repr

/-- Presence events skip the connections that declined them. -/
inductive EventKind
  | presence
  | agentWide
  deriving DecidableEq, Repr

structure State (Req : Type*) where
  connections : ExtTreeMap ConnId Connection
  nextConnId : ConnId
  sink : Bool
  loopQuiesced : Bool
  disconnectHandlers : List HandlerId
  presence : Presence
  pump : Option Pumping
  trace : List (ConnId × Obs Req)

/-- Whether a broadcast takes a connection in. -/
def Connection.Takes (conn : Connection) (kind : EventKind) : Prop :=
  conn.closeWhenDrained = false ∧ (kind = .agentWide ∨ conn.wantsPresenceEvents = true)

instance (conn : Connection) (kind : EventKind) : Decidable (conn.Takes kind) :=
  inferInstanceAs (Decidable (_ ∧ _))

/-- The frame `sendTo` queues for a message: header and body, and the
descriptors that go with it. -/
def frameOf {Req : Type*} (W : Wire Req) (m : Message) (fds : List Fd) : Chunk :=
  ⟨W.encodeFrame m fds.length, fds⟩

namespace State

variable {Req : Type*} (W : Wire Req) (s : State Req)

def log (c : ConnId) (obs : List (Obs Req)) : State Req :=
  { s with trace := s.trace ++ obs.map fun o => (c, o) }

/-- What a trace has beyond that of an earlier state. -/
def since (t : State Req) : List (ConnId × Obs Req) := s.trace.drop t.trace.length

/-- `closeConnection`: the connection leaves the table before the handlers
run. -/
def closeConnection (c : ConnId) (why : CloseReason) : State Req :=
  match s.connections[c]? with
  | none => s
  | some conn =>
    { s with connections := s.connections.erase c }.log c
      (farewell why s.disconnectHandlers conn.caller)

/-- Take a send path's outcome back into the table. -/
def settle (c : ConnId) (out : Outcome) : State Req :=
  let s := s.log c (out.io.map .io)
  match out.conn with
  | .ok conn => { s with connections := s.connections.insert c conn }
  | .error why => s.closeConnection c why

/-- `sendTo`; a vanished connection is ignored. -/
def sendTo (kernel : List IoResult) (c : ConnId) (m : Message) (fds : List Fd) : State Req :=
  match s.connections[c]? with
  | none => s
  | some conn =>
    (s.log c [.enqueued m (frameOf W m fds)]).settle c
      (conn.enqueueSend W.kMaxFrameFds (frameOf W m fds).data fds kernel)

/-- `sendThenClose`. -/
def sendThenClose (kernel : List IoResult) (c : ConnId) (m : Message) : State Req :=
  match s.connections[c]? with
  | none => s
  | some conn =>
    ({ s with connections := s.connections.insert c conn.closing }.log c [.lastFrame]).sendTo
      W kernel c m []

/-- `setWantsPresenceEvents`. -/
def setWantsPresenceEvents (c : ConnId) (wants : Bool) : State Req :=
  match s.connections[c]? with
  | none => s
  | some conn =>
    { s with connections := s.connections.insert c { conn with wantsPresenceEvents := wants } }

/-- The snapshot of ids a broadcast takes first. -/
def takers (kind : EventKind) : List ConnId :=
  (s.connections.toList.filter fun e => e.2.Takes kind).map Prod.fst

/-- `broadcast`: each id of the snapshot is looked up again, since a send
may have closed it. -/
def broadcast (kernel : ConnId → List IoResult) (e : Event) (kind : EventKind) : State Req :=
  (s.takers kind).foldl (fun s c => s.sendTo W (kernel c) c (.event e) []) s

/-- A presence entry point: store the change, broadcast the event. -/
def publish (kernel : ConnId → List IoResult) (change : Presence × Option Event) : State Req :=
  let s := { s with presence := change.1 }
  match change.2 with
  | none => s
  | some e => s.broadcast W kernel e .presence

end State

end Transport

end LibreDarwin
