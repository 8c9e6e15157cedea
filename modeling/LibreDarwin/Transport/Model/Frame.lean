import LibreDarwin.Common.Carriage
import LibreDarwin.Wire.Model.Messages

/-!
# Sending one frame

`trySendFrame` writes a queued frame to the socket until it is out, the
kernel would block, or the kernel fails. The kernel is a finite list of
results, one for each call; when the list is spent the next call would
block, so that a list stands for every moment a run can be looked at.
-/

namespace LibreDarwin

namespace Transport

open Wire Carriage

/-- What one `sendmsg` or `write` returns. A count is what the kernel would
take; it never takes more than it is offered. -/
inductive IoResult
  | wrote (count : ℕ)
  | eintr
  | eagain
  | error
  deriving DecidableEq, Repr

/-- A queued frame: header and body, the descriptors that ride its first
send, and how far it is. -/
structure OutFrame where
  bytes : Bytes
  fds : List Fd
  sent : ℕ
  ancillarySent : Bool
  deriving DecidableEq, Repr

/-- The frame as it was enqueued. -/
def OutFrame.fresh (bytes : Bytes) (fds : List Fd) : OutFrame := ⟨bytes, fds, 0, false⟩

inductive SendState
  | sent
  | wouldBlock
  | error
  deriving DecidableEq, Repr

/-- A piece the kernel accepted: its bytes and the descriptors handed over
with them. -/
abbrev Chunk := Packet UInt8 Fd

/-- What the kernel did with one call, as the peer's end tells it. `of` is
the number of bytes offered. -/
inductive Io
  | accepted (chunk : Chunk) (of : ℕ)
  | interrupted
  | blocked
  | failed
  deriving DecidableEq, Repr

/-- The outcome of `trySendFrame`: the frame as it is left, what the kernel
did, and the results it has not used. -/
structure Sent where
  state : SendState
  frame : OutFrame
  io : List Io
  kernel : List IoResult
  deriving DecidableEq, Repr

/-- The frame after the kernel took `w` more bytes. -/
def OutFrame.advance (f : OutFrame) (w : ℕ) : OutFrame :=
  { f with ancillarySent := true, sent := f.sent + w }

/-- The bytes the next call offers. -/
def OutFrame.offer (f : OutFrame) : Bytes := f.bytes.drop f.sent

/-- The piece the kernel accepts when it takes `w` of the bytes offered:
the descriptors ride until a send has succeeded. -/
def OutFrame.piece (f : OutFrame) (w : ℕ) : Chunk :=
  ⟨f.offer.take w, if f.ancillarySent then [] else f.fds⟩

/-- The loop of `trySendFrame`. -/
def sendLoop (f : OutFrame) : List IoResult → Sent
  | [] =>
    if f.sent < f.bytes.length then ⟨.wouldBlock, f, [.blocked], []⟩
    else ⟨.sent, { f with fds := [] }, [], []⟩
  | r :: rest =>
    if f.sent < f.bytes.length then
      match r with
      | .eintr =>
        let out := sendLoop f rest
        { out with io := .interrupted :: out.io }
      | .eagain => ⟨.wouldBlock, f, [.blocked], rest⟩
      | .error => ⟨.error, f, [.failed], rest⟩
      | .wrote count =>
        let w := min count f.offer.length
        let out := sendLoop (f.advance w) rest
        { out with io := .accepted (f.piece w) f.offer.length :: out.io }
    else ⟨.sent, { f with fds := [] }, [], r :: rest⟩

/-- `trySendFrame`: a frame with more descriptors than the ancillary buffer
holds fails before anything is sent. -/
def trySendFrame (maxFds : ℕ) (f : OutFrame) (kernel : List IoResult) : Sent :=
  if maxFds < f.fds.length then ⟨.error, f, [], kernel⟩ else sendLoop f kernel

end Transport

end LibreDarwin
