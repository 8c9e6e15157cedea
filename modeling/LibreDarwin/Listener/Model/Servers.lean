import LibreDarwin.Instance.Model.Lock
import LibreDarwin.Listener.Model.Guard

/-!
# Servers on one socket path

Any number of servers, each with its instance lock and its listener, and the
socket path they share. A bind and the removal at the end are several
system calls, and between two calls of one server anything may happen to
the path. What is at the path is a file and, for the sake of the argument,
who bound it.

`create` and `start` acquire the lock and then bind; the lock is released
when the server has stopped or its start has failed, and by its death.
-/

namespace LibreDarwin

namespace Listener

open Instance (LockState LockInput Pc)

/-- What is at the socket path. Without an owner it is none of the
servers'. -/
structure SocketFile (P : Type*) where
  identity : SocketPathIdentity
  owner : Option P
  deriving DecidableEq, Repr

/-- The handlers that may come to bind. -/
inductive Handler
  | acceptReady (source : SourceId) (results : List AcceptResult)
  | guardTick
  | cancelHandler (source : SourceId)
  deriving DecidableEq, Repr

/-- The handler, with what its bind comes to if it binds. -/
def Handler.input : Handler → BindOutcome → GuardInput
  | .acceptReady id results, bind => .acceptReady id results bind
  | .guardTick, bind => .guardTick bind
  | .cancelHandler id, bind => .cancelHandler id bind

namespace GuardState

variable (host : Host) (s : GuardState)

/-- `checkSocketPath` tries again. -/
def retries : Bool := !s.stopping && s.rebindPending && s.listenFd.isNone

/-- Whether the handler binds. -/
def binds : Handler → Bool
  | .acceptReady _ results => (s.acceptLoop host results).retries
  | .guardTick => s.retries
  | .cancelHandler _ => !s.stopping && s.rebindPending

end GuardState

/-- Where a server is in `bindContainerSocket`, or in its removal of the
socket file: the call it makes next. The handler is the one that binds,
`none` for `create` and `start`. A start has `failed` until its lock is
released. -/
inductive Calls
  | none
  | failed
  | unlinking (handler : Option Handler)
  | binding (handler : Option Handler)
  | recording (handler : Option Handler) (fd : Fd)
  | listening (handler : Option Handler) (fd : Fd) (identity : SocketPathIdentity)
  | removing
  deriving DecidableEq, Repr

structure ServersState (P : Type*) where
  lock : LockState P
  listener : P → Option GuardState
  calls : P → Calls
  path : Option (SocketFile P)

/-- A call of a server's, with what it answers where it may fail; a handler
of its loop; the teardown; and what others do to the path. -/
inductive ServersInput (P : Type*)
  | lock (i : LockInput P)
  | start (p : P)
  | handler (p : P) (h : Handler)
  | retryFired (p : P)
  | unlink (p : P) (ok : Bool)
  | bind (p : P) (ok : Bool) (fd : Fd) (ino : SocketPathIdentity)
  | record (p : P) (ok : Bool)
  | listen (p : P) (ok : Bool)
  | teardown (p : P)
  | look (p : P)
  | remove (p : P) (ok : Bool)
  | others (file : Option SocketPathIdentity)
  deriving DecidableEq, Repr

/-- Whose step it is. -/
def ServersInput.server {P : Type*} : ServersInput P → Option P
  | .lock i => some i.contender
  | .start p | .handler p _ | .retryFired p | .unlink p _ | .bind p _ _ _ | .record p _
  | .listen p _ | .teardown p | .look p | .remove p _ => some p
  | .others _ => none

namespace ServersState

variable {P : Type*} [DecidableEq P] (host : Host) (s : ServersState P)

def goto (p : P) (c : Calls) : ServersState P := { s with calls := Function.update s.calls p c }

def setListener (p : P) (g : Option GuardState) : ServersState P :=
  { s with listener := Function.update s.listener p g }

/-- The listener of a server, and the path as it is now. -/
def listenerNow (p : P) : Option GuardState :=
  (s.listener p).map fun g => { g with path := s.path.map SocketFile.identity }

/-- The listener takes one step. -/
def stepListener (p : P) (i : GuardInput) : Option (ServersState P) :=
  (s.listenerNow p).bind fun g => (g.step host i).map fun g' => s.setListener p (some g')

/-- `bindContainerSocket` returns: to `create`, or to the handler that
called it. -/
def bound (p : P) (handler : Option Handler) (bind : BindOutcome) : Option (ServersState P) :=
  match handler, bind with
  | none, .bound fd identity => some ((s.setListener p (some (.created fd identity))).goto p .none)
  | none, .failed _ => some (s.goto p .failed)
  | some h, bind => (s.stepListener host p (h.input bind)).map fun t => t.goto p .none

/-- `bindContainerSocket` fails. -/
def unbound (p : P) (handler : Option Handler) : Option (ServersState P) :=
  s.bound host p handler (.failed (s.path.map SocketFile.identity))

/-- The server is done with the path, and its lock goes. -/
def Done (p : P) : Prop :=
  s.calls p = .failed ∨ s.calls p = .none ∧ (s.listener p).map GuardState.stopped = some true

instance (p : P) : Decidable (s.Done p) :=
  inferInstanceAs (Decidable
    (s.calls p = .failed ∨ s.calls p = .none ∧ (s.listener p).map GuardState.stopped = some true))

/-- A call of `acquire` or `release`. -/
def stepLock (i : LockInput P) : Option (ServersState P) :=
  match i with
  | .bind _ => none
  | .release p =>
    if s.Done p then
      (s.lock.step (.release p)).map fun lock =>
        { (s.setListener p none).goto p .none with lock := lock }
    else none
  | .exit p =>
    (s.lock.step (.exit p)).map fun lock =>
      { (s.setListener p none).goto p .none with lock := lock }
  | i => (s.lock.step i).map fun lock => { s with lock := lock }

/-- **One step.** Nothing else of a server runs between the calls of its
bind, and a removal comes when every cancel handler has run. -/
def step : ServersInput P → Option (ServersState P)
  | .lock i => s.stepLock i
  | .start p =>
    match s.lock.pc p, s.listener p, s.calls p with
    | .holding _, none, .none => some (s.goto p (.unlinking none))
    | _, _, _ => none
  | .handler p h =>
    if s.calls p = .none then
      (s.listenerNow p).bind fun g =>
        (g.step host (h.input (.failed g.path))).map fun g' =>
          if g.binds host h then s.goto p (.unlinking (some h)) else s.setListener p (some g')
    else none
  | .retryFired p => if s.calls p = .none then s.stepListener host p .retryFired else none
  | .unlink p ok =>
    match s.calls p with
    | .unlinking h => some ({ s with path := if ok then none else s.path }.goto p (.binding h))
    | _ => none
  | .bind p ok fd ino =>
    match s.calls p with
    | .binding h =>
      if ok = true ∧ s.path = none then
        some ({ s with path := some ⟨ino, some p⟩ }.goto p (.recording h fd))
      else s.unbound host p h
    | _ => none
  | .record p ok =>
    match s.calls p with
    | .recording h fd =>
      match s.path with
      | some file =>
        if ok then some (s.goto p (.listening h fd file.identity)) else s.unbound host p h
      | none => s.unbound host p h
    | _ => none
  | .listen p ok =>
    match s.calls p with
    | .listening h fd identity =>
      if ok then s.bound host p h (.bound fd identity) else s.unbound host p h
    | _ => none
  | .teardown p => if s.calls p = .none then s.stepListener host p .teardown else none
  | .look p =>
    if s.calls p = .none then
      (s.listenerNow p).bind fun g =>
        (g.step host .finish).map fun g' =>
          if g.StillNames then (s.setListener p (some g)).goto p .removing
          else s.setListener p (some g')
    else none
  | .remove p ok =>
    if s.calls p = .removing then
      (s.listener p).bind fun g =>
        (g.step host .finish).map fun g' =>
          { (s.setListener p (some g')).goto p .none with path := if ok then none else s.path }
    else none
  | .others file => some { s with path := file.map fun identity => ⟨identity, none⟩ }

/-- A server that is starting, serving, stopping or just stopped. -/
def Up (p : P) : Prop := s.listener p ≠ none ∨ s.calls p ≠ .none

end ServersState

/-- Nobody is up, whatever is at the two paths. -/
structure Down {P : Type*} (s : ServersState P) : Prop where
  lock : Instance.Quiet s.lock
  listener : ∀ p, s.listener p = none
  calls : ∀ p, s.calls p = .none

def ServersState.down (P : Type*) (path : Option (SocketFile P)) : ServersState P where
  lock := .quiet P none
  listener _ := none
  calls _ := .none
  path := path

theorem ServersState.down_down (P : Type*) (path : Option (SocketFile P)) :
    Down (ServersState.down P path) :=
  ⟨Instance.LockState.quiet_quiet P none, fun _ => rfl, fun _ => rfl⟩

/-- **The servers of a socket path.** -/
def servers (P : Type*) [DecidableEq P] (host : Host) :
    Machine (ServersState P) (ServersInput P) where
  init := Down
  step s i := s.step host i

end Listener

end LibreDarwin
