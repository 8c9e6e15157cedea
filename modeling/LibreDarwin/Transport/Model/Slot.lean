import LibreDarwin.Transport.Model.Loop

/-!
# One connection's part of a run

A `Slot` is what the loop's state says about one connection: its table
entry, the frames pumped from it and not looked at yet, and its part of
the trace. A `Move` is what one step of the loop does to it. The moves of
different connections do not touch each other, so a property of one
connection's outbound stream, of its requests or of its closing is a
property of the moves.
-/

namespace LibreDarwin

namespace Transport

open Wire Std

structure Slot (Req : Type*) where
  conn : Option Connection
  inbound : List WireFrame
  seen : List (Obs Req)

/-- A connection's part of a trace. -/
def partOf {Req : Type*} (trace : List (ConnId × Obs Req)) (c : ConnId) : List (Obs Req) :=
  (trace.filter fun e => e.1 = c).map Prod.snd

namespace State

variable {Req : Type*} (s : State Req)

def seen (c : ConnId) : List (Obs Req) := partOf s.trace c

/-- The frames of a connection that the loop of `onReadReady` has still to
look at. -/
def inbound (c : ConnId) : List WireFrame :=
  match s.pump with
  | none => []
  | some p => if p.conn = c then p.frames else []

def slot (c : ConnId) : Slot Req := ⟨s.connections[c]?, s.inbound c, s.seen c⟩

end State

/-- What a step of the loop does to one connection. `serve` is a turn of
the loop of `onReadReady` on a request that parsed; `stop` is its
return. -/
inductive Move (Req : Type*)
  | rest
  | accept (id : ConnId)
  | send (m : Message) (fds : List Fd)
  | sendThenClose (m : Message)
  | wants (wants : Bool)
  | broadcast (e : Event) (kind : EventKind)
  | writeReady
  | read (frames : List WireFrame)
  | serve (caller : CallerToken) (frame : WireFrame) (req : Req) (heard : Bool)
  | stop
  | stopAndClose (why : CloseReason)
  | timeout
  deriving DecidableEq, Repr

namespace Slot

variable {Req : Type*} (W : Wire Req) (handlers : List HandlerId) (σ : Slot Req)

def log (obs : List (Obs Req)) : Slot Req := { σ with seen := σ.seen ++ obs }

def close (why : CloseReason) : Slot Req :=
  match σ.conn with
  | none => σ
  | some conn =>
    { σ with conn := none }.log (farewell why handlers conn.caller)

def settle (out : Outcome) : Slot Req :=
  let σ := σ.log (out.io.map .io)
  match out.conn with
  | .ok conn => { σ with conn := some conn }
  | .error why => σ.close handlers why

def send (kernel : List IoResult) (m : Message) (fds : List Fd) : Slot Req :=
  match σ.conn with
  | none => σ
  | some conn =>
    (σ.log [.enqueued m (frameOf W m fds)]).settle handlers
      (conn.enqueueSend W.kMaxFrameFds (frameOf W m fds).data fds kernel)

def sendThenClose (kernel : List IoResult) (m : Message) : Slot Req :=
  match σ.conn with
  | none => σ
  | some conn => ({ σ with conn := some conn.closing }.log [.lastFrame]).send W handlers kernel m []

def wants (wants : Bool) : Slot Req :=
  { σ with conn := σ.conn.map fun conn => { conn with wantsPresenceEvents := wants } }

/-- Whether a broadcast takes the connection in. -/
def Takes (kind : EventKind) : Prop := ∃ conn ∈ σ.conn, conn.Takes kind

instance (kind : EventKind) : Decidable (σ.Takes kind) :=
  inferInstanceAs (Decidable (∃ conn ∈ σ.conn, conn.Takes kind))

/-- A broadcast is a `send` to the connections it takes in. -/
def broadcast (kernel : List IoResult) (e : Event) (kind : EventKind) : Slot Req :=
  if σ.Takes kind then σ.send W handlers kernel (.event e) [] else σ

def writeReady (kernel : List IoResult) : Slot Req :=
  match σ.conn with
  | none => σ
  | some conn =>
    if conn.writeSource then σ.settle handlers (conn.flushWrites W.kMaxFrameFds kernel) else σ

def read (frames : List WireFrame) : Slot Req :=
  match σ.conn with
  | none => σ
  | some conn =>
    if conn.readSource then
      { σ with conn := some (if frames.isEmpty then conn else conn.gotFrame)
               inbound := frames }.log (frames.map .delivered)
    else σ

def stop : Slot Req := { σ with inbound := [] }

def serve (caller : CallerToken) (frame : WireFrame) (req : Req) (heard : Bool) : Slot Req :=
  match σ.conn with
  | none => σ.stop
  | some conn =>
    if conn.closeWhenDrained then σ.stop
    else
      { σ with inbound := σ.inbound.tail }.log
        (if heard then [.request caller req frame.fds] else [])

def timeout : Slot Req :=
  match σ.conn with
  | none => σ
  | some conn =>
    if conn.firstFrameTimer = true ∧ conn.sawFirstFrame = false then
      σ.close handlers .firstFrameTimeout
    else σ

/-- **What a move makes of a connection's part of the run.** -/
def move (kernel : List IoResult) : Move Req → Slot Req
  | .rest => σ
  | .accept id => { σ with conn := some (.accepted id) }.log [.connected]
  | .send m fds => σ.send W handlers kernel m fds
  | .sendThenClose m => σ.sendThenClose W handlers kernel m
  | .wants b => σ.wants b
  | .broadcast e kind => σ.broadcast W handlers kernel e kind
  | .writeReady => σ.writeReady W handlers kernel
  | .read frames => σ.read frames
  | .serve caller frame req heard => σ.serve caller frame req heard
  | .stop => σ.stop
  | .stopAndClose why => σ.stop.close handlers why
  | .timeout => σ.timeout handlers

end Slot

namespace State

variable {Req : Type*} (W : Wire Req) (s : State Req)

/-- What a turn of the loop of `onReadReady` does to the connection it
reads from. -/
def turnMove (p : Pumping) : Move Req :=
  match p.frames with
  | [] => if p.ok then .stop else .stopAndClose .pumpEnded
  | frame :: _ =>
    match W.parseRequest frame.body with
    | none => .stopAndClose .malformed
    | some req => .serve p.caller frame req s.sink

/-- What a call of an entry point does to connection `c`. -/
def called (c : ConnId) : Action → Move Req
  | .sendTo d m fds => if d = c then .send m fds else .rest
  | .sendThenClose d m => if d = c then .sendThenClose m else .rest
  | .replyState d req =>
    if d = c then .send (.stateReply req s.presence.currentState) [] else .rest
  | .setWantsPresenceEvents d wants => if d = c then .wants wants else .rest
  | .broadcastConfigChanged key => .broadcast (.configChanged key) .agentWide
  | .broadcastQuiesced reason => .broadcast (.agentQuiesced reason) .agentWide
  | .presence call =>
    match (s.presence.after W.readerInterfaceToken call).2 with
    | none => .rest
    | some e => .broadcast e .presence

/-- **What an event of the loop does to connection `c`.** -/
def moveOn (c : ConnId) : LoopEvent → Move Req
  | .accept identified =>
    if s.nextConnId = c ∧ s.connections.size < kMaxConnections ∧ identified = true then .accept c
    else .rest
  | .readReady d pumped => if d = c then .read pumped.frames else .rest
  | .nextFrame =>
    match s.pump with
    | none => .rest
    | some p => if p.conn = c then s.turnMove W p else .rest
  | .act a => s.called W c a
  | .writeReady d => if d = c then .writeReady else .rest
  | .firstFrameTimeout d => if d = c then .timeout else .rest
  | .quiesceLoop => .rest

end State

end Transport

end LibreDarwin
