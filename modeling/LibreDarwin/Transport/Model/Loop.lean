import LibreDarwin.Common.Machine
import LibreDarwin.Transport.Model.State

/-!
# The loop

The transport as a machine. Its inputs are the events of the serial queue:
a client to accept, a source that fired, a block that calls one of the
entry points. `onReadReady` is taken apart at the request sink, which
calls the entry points from inside it: `readReady` pumps, each `nextFrame`
is one turn of its loop, and the calls of the sink are the `act` inputs
between two turns. Every other event waits until the loop is done.

A source that is not armed does not fire, and a block posted after
`quiesceLoop` is dropped, so those inputs are refused.
-/

namespace LibreDarwin

namespace Transport

open Wire

/-- A call of one of the entry points. `replyState` is the reply of the
GetState handler, which reads the presence at the time of the call. -/
inductive Action
  | sendTo (c : ConnId) (m : Message) (fds : List Fd)
  | sendThenClose (c : ConnId) (m : Message)
  | replyState (c : ConnId) (req : ℕ)
  | setWantsPresenceEvents (c : ConnId) (wants : Bool)
  | broadcastConfigChanged (key : String)
  | broadcastQuiesced (reason : QuiesceReason)
  | presence (call : Presence.Call)
  deriving DecidableEq, Repr

inductive LoopEvent
  | accept (identified : Bool)
  | readReady (c : ConnId) (pumped : Pumped)
  | nextFrame
  | act (a : Action)
  | writeReady (c : ConnId)
  | firstFrameTimeout (c : ConnId)
  | quiesceLoop
  deriving DecidableEq, Repr

/-- A loop event, and what the kernel answers on each connection's socket
while it runs. -/
structure Input where
  event : LoopEvent
  kernel : ConnId → List IoResult

namespace State

variable {Req : Type*} (W : Wire Req) (s : State Req)

/-- `acceptOne`; `identified` is whether the peer's credentials could be
captured. -/
def acceptOne (identified : Bool) : State Req :=
  if kMaxConnections ≤ s.connections.size then s
  else if identified then
    { s with nextConnId := s.nextConnId + 1
             connections := s.connections.insert s.nextConnId (.accepted s.nextConnId) }.log
      s.nextConnId [.connected]
  else s

/-- `onReadReady` up to its loop. -/
def readReady (c : ConnId) (pumped : Pumped) : Option (State Req) :=
  match s.connections[c]? with
  | none => none
  | some conn =>
    if conn.readSource then
      let conn' := if pumped.frames.isEmpty then conn else conn.gotFrame
      some <|
        { s with connections := s.connections.insert c conn'
                 pump := some ⟨c, conn.caller, pumped.frames, pumped.ok, false⟩ }.log c
          (pumped.frames.map .delivered)
    else none

/-- `onReadReady` returns. -/
def endPump : State Req := { s with pump := none }

/-- One turn of the loop of `onReadReady`, or what follows the last one.
A malformed frame closes even a connection that is on its way out; after
that the connection may be gone, closed by a send of the sink. -/
def turn (p : Pumping) : State Req :=
  match p.frames with
  | [] => if p.ok then s.endPump else s.endPump.closeConnection p.conn .pumpEnded
  | frame :: frames =>
    match W.parseRequest frame.body with
    | none => s.endPump.closeConnection p.conn .malformed
    | some req =>
      match s.connections[p.conn]? with
      | none => s.endPump
      | some live =>
        if live.closeWhenDrained then s.endPump
        else
          { s with pump := some { p with frames := frames, serving := s.sink } }.log p.conn
            (if s.sink then [.request p.caller req frame.fds] else [])

def nextFrame : Option (State Req) := s.pump.map (s.turn W)

def act (kernel : ConnId → List IoResult) : Action → State Req
  | .sendTo c m fds => s.sendTo W (kernel c) c m fds
  | .sendThenClose c m => s.sendThenClose W (kernel c) c m
  | .replyState c req => s.sendTo W (kernel c) c (.stateReply req s.presence.currentState) []
  | .setWantsPresenceEvents c wants => s.setWantsPresenceEvents c wants
  | .broadcastConfigChanged key => s.broadcast W kernel (.configChanged key) .agentWide
  | .broadcastQuiesced reason => s.broadcast W kernel (.agentQuiesced reason) .agentWide
  | .presence call =>
    s.publish W kernel (s.presence.after W.readerInterfaceToken call)

/-- The handler of a connection's write source. -/
def writeReady (kernel : List IoResult) (c : ConnId) : Option (State Req) :=
  match s.connections[c]? with
  | none => none
  | some conn =>
    if conn.writeSource then some (s.settle c (conn.flushWrites W.kMaxFrameFds kernel)) else none

/-- `onFirstFrameTimeout`. -/
def firstFrameTimeout (c : ConnId) : Option (State Req) :=
  match s.connections[c]? with
  | none => none
  | some conn =>
    if conn.firstFrameTimer then
      some (if conn.sawFirstFrame then s else s.closeConnection c .firstFrameTimeout)
    else none

/-- `quiesceLoop`: the sink and the handlers are severed, and posted blocks
dropped from here on. -/
def quiesceLoop : State Req :=
  { s with loopQuiesced := true, sink := false, disconnectHandlers := [] }

/-- Whether a call of an entry point can come now: from a posted block
between two events, or from the sink. -/
def CanAct : Prop :=
  s.loopQuiesced = false ∧ ∀ p ∈ s.pump, p.serving = true

instance : Decidable s.CanAct := inferInstanceAs (Decidable (_ ∧ _))

/-- **One step of the loop.** -/
def step (i : Input) : Option (State Req) :=
  match i.event with
  | .nextFrame => s.nextFrame W
  | .act a => if s.CanAct then some (s.act W i.kernel a) else none
  | event =>
    if s.pump.isSome then none
    else
      match event with
      | .accept identified => some (s.acceptOne identified)
      | .readReady c pumped => s.readReady c pumped
      | .writeReady c => s.writeReady W (i.kernel c) c
      | .firstFrameTimeout c => s.firstFrameTimeout c
      | .quiesceLoop => some s.quiesceLoop
      | .nextFrame => none
      | .act _ => none

end State

/-- The transport before its first client, its sink and its disconnect
handlers registered. -/
structure Started {Req : Type*} (s : State Req) : Prop where
  connections : s.connections = ∅
  nextConnId : s.nextConnId = 1
  sink : s.sink = true
  loopQuiesced : s.loopQuiesced = false
  presence : s.presence = .empty
  pump : s.pump = none
  trace : s.trace = []

/-- The started transport with its handlers. -/
def State.start {Req : Type*} (handlers : List HandlerId) : State Req where
  connections := ∅
  nextConnId := 1
  sink := true
  loopQuiesced := false
  disconnectHandlers := handlers
  presence := .empty
  pump := none
  trace := []

theorem State.started_start {Req : Type*} (handlers : List HandlerId) :
    Started (State.start handlers : State Req) := ⟨rfl, rfl, rfl, rfl, rfl, rfl, rfl⟩

/-- **The transport.** -/
def transport {Req : Type*} (W : Wire Req) : Machine (State Req) Input where
  init := Started
  step s i := s.step W i

end Transport

end LibreDarwin
