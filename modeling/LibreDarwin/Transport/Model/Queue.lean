import LibreDarwin.Transport.Model.Loop

/-!
# The serial queue under the loop

What `post`, `postAfter`, `quiesceLoop` and the destructor put on the
transport's serial queue, beside the handlers of its sources. A block of
`post` asks whether the loop is quiesced and calls its function if it is
not; a block of `postAfter` gets onto the queue when it falls due, and
nothing takes it back. `quiesceLoop` and the destructor wait for a block of
their own.
-/

namespace LibreDarwin

namespace Transport

/-- A function handed to `post` or `postAfter`. -/
abbrev FnId := ℕ

inductive Block
  | fn (f : FnId)
  | quiesce
  | teardown
  deriving DecidableEq, Repr

/-- How far the destructor is: not called, waiting for its block, waiting
for the cancel handlers, or returned. -/
inductive Life
  | alive
  | closing
  | tornDown
  | destroyed
  deriving DecidableEq, Repr

/-- What the queue ran: a function's block, with whether the function was
called, and when the destructor returned. -/
inductive QueueMark
  | ran (f : FnId) (called : Bool)
  | quiesced
  | returned
  deriving DecidableEq, Repr

/-- The transport, the blocks queued, and the functions whose delay is not
over. -/
structure QueueState (Req : Type*) where
  transport : State Req
  blocks : List Block
  delayed : List FnId
  life : Life
  trace : List QueueMark

/-- What a caller or the queue does next. A delay is over at any time, in
any order. -/
inductive QueueInput
  | source (i : Input)
  | post (f : FnId)
  | postAfter (f : FnId)
  | due (index : ℕ)
  | quiesceLoop
  | destroy
  | runNext
  | destructorReturns

namespace QueueState

variable {Req : Type*} (W : Wire Req) (s : QueueState Req)

/-- The functions whose block is still to come. -/
def outstanding : List FnId :=
  s.delayed ++ s.blocks.filterMap fun
    | .fn f => some f
    | _ => none

/-- A block of the queue. `~SocketTransport` cancels every source and drops
the connections, and tells no handler. -/
def runBlock : Block → QueueState Req
  | .fn f => { s with trace := s.trace ++ [.ran f !s.transport.loopQuiesced] }
  | .quiesce =>
    { s with transport := s.transport.quiesceLoop, trace := s.trace ++ [.quiesced] }
  | .teardown =>
    { s with transport := { s.transport with connections := ∅, pump := none }
             life := .tornDown }

/-- Take the block at the head. -/
def runNext : Option (QueueState Req) :=
  match s.blocks with
  | [] => none
  | block :: blocks => some ({ s with blocks := blocks }.runBlock block)

/-- **One step.** The queue is serial: while a read is being pumped no
block runs. Sources fire until they are cancelled, and nobody calls a
transport that is gone; the blocks are the queue's, and run all the
same. -/
def step : QueueInput → Option (QueueState Req)
  | .source i =>
    match i.event with
    | .quiesceLoop => none
    | _ =>
      if s.life = .alive ∨ s.life = .closing then
        (s.transport.step W i).map fun t => { s with transport := t }
      else none
  | .post f => if s.life = .destroyed then none else some { s with blocks := s.blocks ++ [.fn f] }
  | .postAfter f => if s.life = .destroyed then none else some { s with delayed := s.delayed ++ [f] }
  | .due index =>
    match s.delayed[index]? with
    | none => none
    | some f =>
      some { s with delayed := s.delayed.eraseIdx index, blocks := s.blocks ++ [.fn f] }
  | .quiesceLoop =>
    if s.life = .alive then some { s with blocks := s.blocks ++ [.quiesce] } else none
  | .destroy =>
    if s.life = .alive then some { s with blocks := s.blocks ++ [.teardown], life := .closing }
    else none
  | .runNext => if s.transport.pump.isSome then none else s.runNext
  | .destructorReturns =>
    if s.life = .tornDown then some { s with life := .destroyed, trace := s.trace ++ [.returned] }
    else none

/-- The queue of a transport that has just started. -/
def idle (t : State Req) : QueueState Req := ⟨t, [], [], .alive, []⟩

end QueueState

/-- **The queue.** -/
def serialQueue {Req : Type*} (W : Wire Req) : Machine (QueueState Req) QueueInput where
  init s := ∃ t, Started t ∧ s = .idle t
  step s i := s.step W i

end Transport

end LibreDarwin
