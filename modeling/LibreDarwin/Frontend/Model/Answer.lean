import LibreDarwin.Transport.Model.Queue

/-!
# The answer of a confirmation, and two destructors

`confirmThenApply` taken apart at everything another thread may come in
between: the worker that waits for the person, the guard's mutex, the block
the worker posts, and what the loop does with it. Beside them run the
destructor of the frontend, which takes the same mutex, and the destructor
of the transport, which comes after it and waits for a block of its own at
the end of the queue.
-/

namespace LibreDarwin

namespace Frontend

open Transport (Life)

/-- A confirmation, in the order they were asked for. -/
abbrev ConfirmId := ℕ

/-- Where the worker of a confirmation is; `ok` is its verdict. -/
inductive WorkerPc
  | unasked
  | confirming
  | answered (ok : Bool)
  | locked (ok : Bool)
  | sawAlive (ok : Bool)
  | leaving
  | done
  deriving DecidableEq, Repr

/-- Where the posted block is that the loop is running. -/
inductive Stage
  | entered
  | locked
  | sawAlive
  | erased
  | leaving
  deriving DecidableEq, Repr

/-- The posted block that the loop is running. -/
structure Running where
  confirm : ConfirmId
  ok : Bool
  stage : Stage
  deriving DecidableEq, Repr

/-- Where the destructor of the frontend is. -/
inductive DestructorPc
  | notCalled
  | waiting
  | locked
  | marked
  | gone
  deriving DecidableEq, Repr

inductive Holder
  | worker (n : ConfirmId)
  | loop
  | destructor
  deriving DecidableEq, Repr

/-- A block on the loop's queue. -/
inductive AnswerBlock
  | continuation (n : ConfirmId) (ok : Bool)
  | quiesce
  | teardown
  deriving DecidableEq, Repr

/-- What was done on an answer's account, in order, and when the frontend
and the transport went. A block that is `taken` reads the transport. -/
inductive AnswerMark
  | posted (n : ConfirmId) (ok : Bool)
  | discarded (n : ConfirmId)
  | taken (n : ConfirmId)
  | dropped (n : ConfirmId)
  | discardedOnLoop (n : ConfirmId)
  | erased (n : ConfirmId)
  | replied (n : ConfirmId)
  | applied (n : ConfirmId)
  | frontendGone
  | transportGone
  deriving DecidableEq, Repr

/-- The confirmation a mark is about. -/
def AnswerMark.confirm? : AnswerMark → Option ConfirmId
  | .posted n _ | .discarded n | .taken n | .dropped n | .discardedOnLoop n | .erased n
  | .replied n | .applied n => some n
  | .frontendGone | .transportGone => none

/-- The guard (its mutex and its flag), the threads, the queue, and how far
the transport's destructor is. -/
structure AnswerState where
  mutex : Option Holder
  alive : Bool
  worker : ConfirmId → WorkerPc
  loop : Option Running
  destructor : DestructorPc
  blocks : List AnswerBlock
  loopQuiesced : Bool
  life : Life
  trace : List AnswerMark

/-- One step of a thread, a call of one of the teardown functions, or the
queue's next block. -/
inductive AnswerInput
  | ask (n : ConfirmId)
  | answer (n : ConfirmId) (ok : Bool)
  | workerLock (n : ConfirmId)
  | workerCheck (n : ConfirmId)
  | workerPost (n : ConfirmId)
  | workerUnlock (n : ConfirmId)
  | runNext
  | loopLock
  | loopCheck
  | loopErase
  | loopFinish
  | loopUnlock
  | quiesceLoop
  | destroyFrontend
  | destructorLock
  | destructorMark
  | destructorUnlock
  | destroyTransport
  | transportReturns
  deriving DecidableEq, Repr

namespace AnswerState

variable (s : AnswerState)

def goto (n : ConfirmId) (pc : WorkerPc) : AnswerState :=
  { s with worker := Function.update s.worker n pc }

def mark (m : AnswerMark) : AnswerState := { s with trace := s.trace ++ [m] }

/-- The loop takes a block off the queue. The block of a posted function
looks at the transport's flag first. -/
def runBlock : AnswerBlock → AnswerState
  | .continuation n ok =>
    if s.loopQuiesced then (s.mark (.taken n)).mark (.dropped n)
    else { s with loop := some ⟨n, ok, .entered⟩ }.mark (.taken n)
  | .quiesce => { s with loopQuiesced := true }
  | .teardown => { s with life := .tornDown }

/-- **One step.** The lock is held from the check of the flag to the end of
what the check decides. -/
def step : AnswerInput → Option AnswerState
  | .ask n =>
    if s.worker n = .unasked ∧ s.loop = none ∧ s.destructor ≠ .gone then
      some (s.goto n .confirming)
    else none
  | .answer n ok => if s.worker n = .confirming then some (s.goto n (.answered ok)) else none
  | .workerLock n =>
    match s.worker n with
    | .answered ok =>
      if s.mutex = none then some ({ s with mutex := some (.worker n) }.goto n (.locked ok))
      else none
    | _ => none
  | .workerCheck n =>
    match s.worker n with
    | .locked ok =>
      some (if s.alive then s.goto n (.sawAlive ok) else (s.goto n .leaving).mark (.discarded n))
    | _ => none
  | .workerPost n =>
    match s.worker n with
    | .sawAlive ok =>
      some (({ s with blocks := s.blocks ++ [AnswerBlock.continuation n ok] }.goto n .leaving).mark
        (.posted n ok))
    | _ => none
  | .workerUnlock n =>
    if s.worker n = .leaving then some ({ s with mutex := none }.goto n .done) else none
  | .runNext =>
    match s.loop, s.blocks with
    | none, block :: blocks => some ({ s with blocks := blocks }.runBlock block)
    | _, _ => none
  | .loopLock =>
    match s.loop with
    | some ⟨n, ok, .entered⟩ =>
      if s.mutex = none then some { s with mutex := some .loop, loop := some ⟨n, ok, .locked⟩ }
      else none
    | _ => none
  | .loopCheck =>
    match s.loop with
    | some ⟨n, ok, .locked⟩ =>
      some (if s.alive then { s with loop := some ⟨n, ok, .sawAlive⟩ }
        else { s with loop := some ⟨n, ok, .leaving⟩ }.mark (.discardedOnLoop n))
    | _ => none
  | .loopErase =>
    match s.loop with
    | some ⟨n, ok, .sawAlive⟩ =>
      some ({ s with loop := some ⟨n, ok, .erased⟩ }.mark (.erased n))
    | _ => none
  | .loopFinish =>
    match s.loop with
    | some ⟨n, ok, .erased⟩ =>
      some ({ s with loop := some ⟨n, ok, .leaving⟩ }.mark (if ok then .applied n else .replied n))
    | _ => none
  | .loopUnlock =>
    match s.loop with
    | some ⟨_, _, .leaving⟩ => some { s with mutex := none, loop := none }
    | _ => none
  | .quiesceLoop =>
    if s.life = .alive then some { s with blocks := s.blocks ++ [.quiesce] } else none
  | .destroyFrontend =>
    if s.destructor = .notCalled then some { s with destructor := .waiting } else none
  | .destructorLock =>
    if s.destructor = .waiting ∧ s.mutex = none then
      some { s with destructor := .locked, mutex := some .destructor }
    else none
  | .destructorMark =>
    if s.destructor = .locked then some { s with destructor := .marked, alive := false } else none
  | .destructorUnlock =>
    if s.destructor = .marked then
      some ({ s with destructor := .gone, mutex := none }.mark .frontendGone)
    else none
  | .destroyTransport =>
    if s.destructor = .gone ∧ s.life = .alive then
      some { s with blocks := s.blocks ++ [.teardown], life := .closing }
    else none
  | .transportReturns =>
    if s.life = .tornDown then some ({ s with life := .destroyed }.mark .transportGone) else none

/-- A frontend nobody has asked anything yet. -/
def fresh : AnswerState where
  mutex := none
  alive := true
  worker _ := .unasked
  loop := none
  destructor := .notCalled
  blocks := []
  loopQuiesced := false
  life := .alive
  trace := []

end AnswerState

/-- **The answers and the teardown.** -/
def answers : Machine AnswerState AnswerInput where
  init s := s = .fresh
  step s i := s.step i

end Frontend

end LibreDarwin
