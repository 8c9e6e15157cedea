import LibreDarwin.Common.Machine

/-!
# The listener and its guard

The accept source of a server, the guard that looks whether the socket path
still names what the server bound, and the teardown. The transport and the
prompter server have the same code, except that the transport pauses
accepting when it is out of descriptors and the prompter server lets go of
more than it needs to; `Host` says which of the two it is.

A dispatch source is an object of its own, which outlives the variable that
names it: cancelled, it stays until its cancel handler has run, and
suspended, it delivers nothing. The inputs are the handlers the serial
queue runs, in any order, and what others do to the path.
-/

namespace LibreDarwin

namespace Listener

abbrev Fd := ℕ

/-- Device and inode of a socket file. -/
abbrev SocketPathIdentity := ℕ

abbrev SourceId := ℕ

/-- The two servers. -/
inductive Host
  | socketTransport
  | prompterServer
  deriving DecidableEq, Repr

/-- Whether a server that is out of descriptors pauses accepting. -/
def Host.pauses : Host → Bool
  | .socketTransport => true
  | .prompterServer => false

/-- A dispatch source on a listen descriptor. -/
structure Source where
  fd : Fd
  suspended : Bool
  cancelled : Bool
  deriving DecidableEq, Repr

/-- The one-shot timer that ends a pause. -/
inductive RetryTimer
  | none
  | idle
  | armed
  deriving DecidableEq, Repr

/-- What one `accept` returns: `outOfFds` is EMFILE or ENFILE, `drained`
any other error. -/
inductive AcceptResult
  | connection
  | eintr
  | outOfFds
  | drained
  deriving DecidableEq, Repr

/-- What an attempt to bind comes to. One that fails may have unlinked what
was at the path, or leave what it bound; `path` is what is there then. -/
inductive BindOutcome
  | bound (fd : Fd) (identity : SocketPathIdentity)
  | failed (path : Option SocketPathIdentity)
  deriving DecidableEq, Repr

/-- What the server did, in order. A `closed` says in which source's cancel
handler it happened, if in one; a `cancelled` whether the source was
suspended; an `unlinked` what the path named. -/
inductive Mark
  | bound (identity : SocketPathIdentity)
  | installed (source : SourceId) (fd : Fd)
  | cancelled (source : SourceId) (suspended : Bool)
  | closed (fd : Fd) (handler : Option SourceId)
  | teardown
  | unlinked (path : Option SocketPathIdentity)
  deriving DecidableEq, Repr

/-- The server's listener state, the sources that exist, and what the path
names. -/
structure GuardState where
  listenFd : Option Fd
  acceptSource : Option SourceId
  listenIdentity : Option SocketPathIdentity
  pathGuardTimer : Bool
  acceptRetryTimer : RetryTimer
  acceptPaused : Bool
  rebindPending : Bool
  stopping : Bool
  stopped : Bool
  cancelledListener : Option Fd
  closedListenFdAtCancel : ℕ
  acceptTeardown : ℕ
  nextSource : SourceId
  sources : SourceId → Option Source
  openFds : List Fd
  path : Option SocketPathIdentity
  trace : List Mark

namespace GuardState

variable (host : Host) (s : GuardState)

def mark (m : Mark) : GuardState := { s with trace := s.trace ++ [m] }

/-- Close the descriptor that `listenFd` holds, if it holds one. -/
def closeListenFd (handler : Option SourceId) : GuardState :=
  match s.listenFd with
  | none => s
  | some fd =>
    { s with listenFd := none, openFds := s.openFds.erase fd }.mark (.closed fd handler)

/-- Change a source. -/
def alter (id : SourceId) (f : Source → Source) : GuardState :=
  { s with sources := Function.update s.sources id ((s.sources id).map f) }

def installAcceptSource : GuardState :=
  match s.listenFd with
  | none => s
  | some fd =>
    { s with acceptSource := some s.nextSource
             nextSource := s.nextSource + 1
             sources := Function.update s.sources s.nextSource (some ⟨fd, false, false⟩)
             acceptTeardown := s.acceptTeardown + 1 }.mark (.installed s.nextSource fd)

def resumeAccepting : GuardState :=
  let s' := match s.acceptSource with
    | some id => if s.acceptPaused then s.alter id fun src => { src with suspended := false } else s
    | none => s
  { s' with acceptPaused := false }

def pauseAccepting : GuardState :=
  match s.acceptSource with
  | none => s
  | some id =>
    if s.acceptPaused then s
    else
      { s.alter id (fun src => { src with suspended := true }) with
        acceptPaused := true
        acceptRetryTimer := .armed }

/-- `cancelAcceptSource`; the transport resumes a paused source first. -/
def cancelAcceptSource : GuardState :=
  let s := if host.pauses then s.resumeAccepting else s
  match s.acceptSource with
  | none => s
  | some id =>
    { s.alter id (fun src => { src with cancelled := true }) with
      cancelledListener := s.listenFd
      acceptSource := none }.mark (.cancelled id (((s.sources id).map Source.suspended).getD false))

/-- `rebindListenSocket`. Assigning `listenFd` closes what it held. -/
def rebindListenSocket : BindOutcome → GuardState
  | .failed path =>
    { (if host = Host.prompterServer then s.closeListenFd none else s) with path := path }
  | .bound fd identity =>
    ({ s.closeListenFd none with
       listenFd := some fd
       openFds := fd :: (s.closeListenFd none).openFds
       listenIdentity := some identity
       path := some identity
       rebindPending := false }.mark (.bound identity)).installAcceptSource

/-- `stillNames` on what the server bound last. -/
def StillNames : Prop := ∃ identity ∈ s.listenIdentity, s.path = some identity

instance : Decidable s.StillNames :=
  inferInstanceAs (Decidable (∃ identity ∈ s.listenIdentity, s.path = some identity))

def checkSocketPath (bind : BindOutcome) : GuardState :=
  if s.stopping then s
  else if s.rebindPending then
    if s.listenFd = none then s.rebindListenSocket host bind else s
  else if s.acceptSource = none ∨ s.StillNames then s
  else { s with rebindPending := true }.cancelAcceptSource host

def onAcceptSourceCancelled (id : SourceId) (bind : BindOutcome) : GuardState :=
  let s :=
    if s.cancelledListener.isSome ∧ s.cancelledListener = s.listenFd then s
    else { s with closedListenFdAtCancel := s.closedListenFdAtCancel + 1 }
  let s := { s with cancelledListener := none }.closeListenFd (some id)
  if s.stopping then s
  else
    let s := { s with listenIdentity := none }
    if s.rebindPending then s.rebindListenSocket host bind else s

/-- The cancel handler, and the source with it. -/
def cancelHandler (id : SourceId) (bind : BindOutcome) : GuardState :=
  let s := { s with sources := Function.update s.sources id none }
  let s := s.onAcceptSourceCancelled host id bind
  { s with acceptTeardown := s.acceptTeardown - 1 }

/-- The loop of `onAcceptReady`. A list of results that is spent is a
listener that is drained. -/
def acceptLoop : List AcceptResult → GuardState
  | [] => s
  | .connection :: rest => acceptLoop rest
  | .eintr :: rest => acceptLoop rest
  | .outOfFds :: _ => if host.pauses then s.pauseAccepting else s
  | .drained :: _ => s

def onAcceptReady (results : List AcceptResult) (bind : BindOutcome) : GuardState :=
  (s.acceptLoop host results).checkSocketPath host bind

/-- The block the destructor, or `stop`, runs on the loop. -/
def teardown : GuardState :=
  let s := { s with stopping := true, pathGuardTimer := false,
                    acceptRetryTimer := .none }.mark .teardown
  if s.acceptSource.isSome then s.cancelAcceptSource host else s

/-- What follows once every cancel handler has run: the file goes if it is
still this server's, and the members are destroyed. -/
def finish : GuardState :=
  let s := if s.StillNames then { s with path := none }.mark (.unlinked s.path) else s
  let identity := if host = Host.prompterServer then none else s.listenIdentity
  { s with stopped := true, listenIdentity := identity }.closeListenFd none

end GuardState

/-- What the queue runs next, and what others do to the path. -/
inductive GuardInput
  | acceptReady (source : SourceId) (results : List AcceptResult) (bind : BindOutcome)
  | guardTick (bind : BindOutcome)
  | retryFired
  | cancelHandler (source : SourceId) (bind : BindOutcome)
  | replaced (path : Option SocketPathIdentity)
  | teardown
  | finish
  deriving DecidableEq, Repr

namespace GuardState

variable (host : Host) (s : GuardState)

/-- **One step.** An event handler waits while its source is suspended and
never comes once it is cancelled; a cancel handler comes once, and waits
too. -/
def step : GuardInput → Option GuardState
  | .acceptReady id results bind =>
    match s.sources id with
    | none => none
    | some src =>
      if src.suspended = false ∧ src.cancelled = false then
        some (s.onAcceptReady host results bind)
      else none
  | .guardTick bind => if s.pathGuardTimer then some (s.checkSocketPath host bind) else none
  | .retryFired =>
    if s.acceptRetryTimer = .armed then
      some ({ s with acceptRetryTimer := .idle }.resumeAccepting)
    else none
  | .cancelHandler id bind =>
    match s.sources id with
    | none => none
    | some src =>
      if src.suspended = false ∧ src.cancelled = true then some (s.cancelHandler host id bind)
      else none
  | .replaced path => some { s with path := path }
  | .teardown => if s.stopping then none else some (s.teardown host)
  | .finish =>
    if s.stopping ∧ s.acceptTeardown = 0 ∧ s.stopped = false then some (s.finish host) else none

/-- Right after `create`, or `start`: bound, and its source installed. -/
def created (fd : Fd) (identity : SocketPathIdentity) : GuardState where
  listenFd := some fd
  acceptSource := some 0
  listenIdentity := some identity
  pathGuardTimer := true
  acceptRetryTimer := .none
  acceptPaused := false
  rebindPending := false
  stopping := false
  stopped := false
  cancelledListener := none
  closedListenFdAtCancel := 0
  acceptTeardown := 1
  nextSource := 1
  sources := Function.update (fun _ => none) 0 (some ⟨fd, false, false⟩)
  openFds := [fd]
  path := some identity
  trace := [.bound identity, .installed 0 fd]

end GuardState

/-- **The listener of a server.** -/
def listener (host : Host) : Machine GuardState GuardInput where
  init s := ∃ fd identity, s = .created fd identity
  step s i := s.step host i

end Listener

end LibreDarwin
