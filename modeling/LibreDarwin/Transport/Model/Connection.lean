import LibreDarwin.Transport.Model.Frame

/-!
# One connection's outbound side

`enqueueSend` appends a frame and checks the bounds, `flushWrites` writes
queued frames until the queue is empty or the kernel blocks. Both may end
by calling `closeConnection`, which erases the connection they work on;
here they return an `Outcome`, and the table acts on it.
-/

namespace LibreDarwin

namespace Transport

open Wire Carriage

abbrev ConnId := ℕ

abbrev CallerToken := String

/-- `std::format("conn:{}", id)`. -/
def callerToken (id : ConnId) : CallerToken := "conn:" ++ id.repr

/-- The call of `closeConnection` a connection ended by. -/
inductive CloseReason
  | malformed
  | pumpEnded
  | firstFrameTimeout
  | queueBound
  | sendError
  | drained
  deriving DecidableEq, Repr

/-- A live connection. The three sources are flags here: armed or not. -/
structure Connection where
  id : ConnId
  caller : CallerToken
  readSource : Bool
  writeSource : Bool
  firstFrameTimer : Bool
  sawFirstFrame : Bool
  wantsPresenceEvents : Bool
  closeWhenDrained : Bool
  outQueue : List OutFrame
  queuedBytes : ℕ
  deriving DecidableEq, Repr

/-- The connection `acceptOne` builds. -/
def Connection.accepted (id : ConnId) : Connection where
  id := id
  caller := callerToken id
  readSource := true
  writeSource := false
  firstFrameTimer := true
  sawFirstFrame := false
  wantsPresenceEvents := true
  closeWhenDrained := false
  outQueue := []
  queuedBytes := 0

def kMaxConnections : ℕ := 32

def kMaxQueuedBytesPerConnection : ℕ := 4 * 1024 * 1024

def kMaxQueuedFrames : ℕ := 4096

/-- The connection as a send path leaves it, or the call of
`closeConnection` it ended by; and what the kernel did. -/
structure Outcome where
  conn : Except CloseReason Connection
  io : List Io

/-- What the loop of `flushWrites` ends with. -/
inductive Flushed
  | drained
  | blocked
  | failed
  deriving DecidableEq, Repr

/-- The queue after the loop of `flushWrites`, with `queuedBytes` and what
the kernel did. -/
structure QueueFlush where
  ended : Flushed
  queue : List OutFrame
  queuedBytes : ℕ
  io : List Io
  deriving DecidableEq, Repr

/-- The loop of `flushWrites`: a sent frame is popped and its size
subtracted. -/
def flushQueue (maxFds : ℕ) : List OutFrame → ℕ → List IoResult → QueueFlush
  | [], queuedBytes, _ => ⟨.drained, [], queuedBytes, []⟩
  | f :: queue, queuedBytes, kernel =>
    let out := trySendFrame maxFds f kernel
    match out.state with
    | .wouldBlock => ⟨.blocked, out.frame :: queue, queuedBytes, out.io⟩
    | .error => ⟨.failed, out.frame :: queue, queuedBytes, out.io⟩
    | .sent =>
      let rest := flushQueue maxFds queue (queuedBytes - f.bytes.length) out.kernel
      { rest with io := out.io ++ rest.io }

namespace Connection

variable (conn : Connection)

/-- `flushWrites`. The write source exists while the kernel blocks, and a
connection on its way out is closed once its queue is empty. -/
def flushWrites (maxFds : ℕ) (kernel : List IoResult) : Outcome :=
  let out := flushQueue maxFds conn.outQueue conn.queuedBytes kernel
  match out.ended with
  | .blocked =>
    ⟨.ok { conn with outQueue := out.queue, queuedBytes := out.queuedBytes,
                     writeSource := true }, out.io⟩
  | .failed => ⟨.error .sendError, out.io⟩
  | .drained =>
    if conn.closeWhenDrained then ⟨.error .drained, out.io⟩
    else ⟨.ok { conn with outQueue := out.queue, queuedBytes := out.queuedBytes,
                          writeSource := false }, out.io⟩

/-- The connection with one more frame queued. -/
def push (framed : Bytes) (fds : List Fd) : Connection :=
  { conn with outQueue := conn.outQueue ++ [.fresh framed fds],
              queuedBytes := conn.queuedBytes + framed.length }

/-- The check `enqueueSend` makes before anything is written. -/
def OverBound : Prop :=
  kMaxQueuedBytesPerConnection < conn.queuedBytes ∨ kMaxQueuedFrames < conn.outQueue.length

instance : Decidable conn.OverBound := inferInstanceAs (Decidable (_ ∨ _))

/-- `enqueueSend`. -/
def enqueueSend (maxFds : ℕ) (framed : Bytes) (fds : List Fd) (kernel : List IoResult) :
    Outcome :=
  if (conn.push framed fds).OverBound then ⟨.error .queueBound, []⟩
  else (conn.push framed fds).flushWrites maxFds kernel

/-- What `sendThenClose` does before it sends: reading stops, and the next
drain closes. -/
def closing : Connection := { conn with readSource := false, closeWhenDrained := true }

/-- What `onReadReady` does when `pump` returned frames. -/
def gotFrame : Connection := { conn with sawFirstFrame := true, firstFrameTimer := false }

end Connection

end Transport

end LibreDarwin
