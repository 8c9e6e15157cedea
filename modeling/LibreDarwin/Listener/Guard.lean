import LibreDarwin.Common.History
import LibreDarwin.Listener.Model.Guard

/-!
# A listener that is never lost

At any moment between two handlers a server's listener is in one of three
shapes: it serves, its source is cancelled and the cancel handler has not
run, or it is unbound. Every handler goes from a shape to a shape
(`Kept.step`), and none of them is a dead end before the teardown: the
cancel handler binds again, and an unbound server tries at every tick of
the guard. What the handlers log is right by what was logged before it
(`Mark.Right`).
-/

namespace LibreDarwin

namespace Listener

open Function

/-- One source, and no other. -/
def only (id : SourceId) (src : Source) : SourceId → Option Source :=
  update (fun _ => none) id (some src)

theorem only_eq_some {id id' : SourceId} {src src' : Source} (h : only id src id' = some src') :
    id' = id ∧ src' = src := by
  rw [only, update_apply] at h
  split at h
  · next heq => exact ⟨heq, (Option.some.inj h).symm⟩
  · cases h

theorem only_self (id : SourceId) (src : Source) : only id src id = some src := update_self _ _ _

/-- **Accepting**: one source, on the listen descriptor. -/
structure Serving (s : GuardState) : Prop where
  stopping : s.stopping = false
  rebindPending : s.rebindPending = false
  acceptTeardown : s.acceptTeardown = 1
  identity : s.listenIdentity.isSome = true
  source : ∃ id fd, s.acceptSource = some id ∧ s.listenFd = some fd ∧ s.openFds = [fd] ∧
    s.sources = only id ⟨fd, s.acceptPaused, false⟩ ∧ .installed id fd ∈ s.trace

/-- **A cancellation in flight**: the source is cancelled and its handler
has not run. -/
structure Cancelling (s : GuardState) : Prop where
  purpose : s.stopping = true ∨ s.rebindPending = true
  acceptTeardown : s.acceptTeardown = 1
  acceptPaused : s.acceptPaused = false
  source : ∃ id fd, s.acceptSource = none ∧ s.listenFd = some fd ∧ s.openFds = [fd] ∧
    s.cancelledListener = some fd ∧ s.sources = only id ⟨fd, false, true⟩ ∧
    .installed id fd ∈ s.trace ∧ .cancelled id false ∈ s.trace

/-- **Unbound.** -/
structure Unbound (s : GuardState) : Prop where
  purpose : s.stopping = true ∨ s.rebindPending = true
  acceptTeardown : s.acceptTeardown = 0
  acceptPaused : s.acceptPaused = false
  acceptSource : s.acceptSource = none
  listenFd : s.listenFd = none
  openFds : s.openFds = []
  sources : s.sources = fun _ => none

/-- Why an entry of the log is right. -/
def Mark.Right (before : List Mark) : Mark → Prop
  | .bound _ => .teardown ∉ before
  | .installed _ _ => .teardown ∉ before
  | .cancelled _ suspended => suspended = false
  | .closed fd handler =>
    ∃ id, handler = some id ∧ .installed id fd ∈ before ∧ .cancelled id false ∈ before
  | .teardown => .teardown ∉ before
  | .unlinked path => .teardown ∈ before ∧ ∃ identity, path = some identity ∧ .bound identity ∈ before

/-- What is so in every shape. -/
structure Sound (host : Host) (s : GuardState) : Prop where
  paused : s.acceptPaused = true → host.pauses = true ∧ s.acceptRetryTimer = .armed
  guard : s.pathGuardTimer = !s.stopping
  heldAtCancel : s.closedListenFdAtCancel = 0
  identity : ∀ i, s.listenIdentity = some i → .bound i ∈ s.trace
  torn : s.stopping = true ↔ .teardown ∈ s.trace
  log : Accounted Mark.Right s.trace

/-- **What every handler keeps.** -/
structure Kept (host : Host) (s : GuardState) : Prop extends Sound host s where
  shape : Serving s ∨ Cancelling s ∨ Unbound s

variable {host : Host} {s : GuardState}

theorem Kept.created (fd : Fd) (identity : SocketPathIdentity) :
    Kept host (.created fd identity) where
  shape := .inl ⟨rfl, rfl, rfl, rfl, 0, fd, rfl, rfl, rfl, rfl, by simp [GuardState.created]⟩
  paused := by rintro ⟨⟩
  guard := rfl
  heldAtCancel := rfl
  identity := by rintro i ⟨⟩; simp [GuardState.created]
  torn := by simp [GuardState.created]
  log := by
    have hbound : Accounted Mark.Right ([] ++ [.bound identity]) :=
      Accounted.nil.snoc (by simp [Mark.Right])
    exact hbound.snoc (y := .installed 0 fd) (by simp [Mark.Right])

/-! What the functions do to the shapes. -/

/-- Cancelling the one source: a paused one is resumed first. -/
theorem cancelAcceptSource_eq {id : SourceId} {fd : Fd} (hsource : s.acceptSource = some id)
    (hfd : s.listenFd = some fd) (hsources : s.sources = only id ⟨fd, s.acceptPaused, false⟩)
    (hpaused : s.acceptPaused = true → host.pauses = true) :
    s.cancelAcceptSource host =
      { s with sources := only id ⟨fd, false, true⟩
               acceptPaused := false
               cancelledListener := some fd
               acceptSource := none
               trace := s.trace ++ [.cancelled id false] } := by
  cases hp : s.acceptPaused with
  | true =>
    have hpauses := hpaused hp
    simp [GuardState.cancelAcceptSource, GuardState.resumeAccepting, GuardState.alter,
      GuardState.mark, hpauses, hsource, hfd, hsources, hp, only]
  | false =>
    cases hpauses : host.pauses with
    | true =>
      simp [GuardState.cancelAcceptSource, GuardState.resumeAccepting, GuardState.alter,
        GuardState.mark, hpauses, hsource, hfd, hsources, hp, only]
    | false =>
      simp [GuardState.cancelAcceptSource, GuardState.alter, GuardState.mark, hpauses, hsource,
        hfd, hsources, hp, only]

/-- Binding, where nothing is open. -/
theorem rebindListenSocket_eq (hfd : s.listenFd = none) (fd : Fd)
    (identity : SocketPathIdentity) :
    s.rebindListenSocket host (.bound fd identity) =
      { s with listenFd := some fd
               openFds := fd :: s.openFds
               listenIdentity := some identity
               path := some identity
               rebindPending := false
               acceptSource := some s.nextSource
               nextSource := s.nextSource + 1
               sources := update s.sources s.nextSource (some ⟨fd, false, false⟩)
               acceptTeardown := s.acceptTeardown + 1
               trace := s.trace ++ [.bound identity, .installed s.nextSource fd] } := by
  simp [GuardState.rebindListenSocket, GuardState.closeListenFd, GuardState.installAcceptSource,
    GuardState.mark, hfd]

theorem rebindListenSocket_failed (hfd : s.listenFd = none) (path : Option SocketPathIdentity) :
    s.rebindListenSocket host (.failed path) = { s with path := path } := by
  simp [GuardState.rebindListenSocket, GuardState.closeListenFd, hfd]

/-- The cancel handler closes what was cancelled, and then binds where
there is a binding to make. -/
theorem cancelHandler_eq {id : SourceId} {fd : Fd} (hfd : s.listenFd = some fd)
    (hopen : s.openFds = [fd]) (hheld : s.cancelledListener = some fd)
    (hsources : s.sources = only id ⟨fd, false, true⟩) (hteardown : s.acceptTeardown = 1)
    (hpurpose : s.stopping = true ∨ s.rebindPending = true) (bind : BindOutcome) :
    s.cancelHandler host id bind =
      let t : GuardState :=
        { s with sources := fun _ => none
                 cancelledListener := none
                 listenFd := none
                 openFds := []
                 acceptTeardown := 0
                 trace := s.trace ++ [.closed fd (some id)] }
      if s.stopping = true then t
      else { t with listenIdentity := none }.rebindListenSocket host bind := by
  have hclosed : ∀ t : GuardState, t.listenFd = some fd → t.closeListenFd (some id) =
      { t with listenFd := none
               openFds := t.openFds.erase fd
               trace := t.trace ++ [.closed fd (some id)] } := by
    intro t ht
    simp [GuardState.closeListenFd, GuardState.mark, ht]
  cases hstopping : s.stopping with
  | true =>
    simp [GuardState.cancelHandler, GuardState.onAcceptSourceCancelled, hclosed, hstopping, hfd,
      hheld, hopen, hsources, hteardown, only]
  | false =>
    have hpending : s.rebindPending = true := hpurpose.resolve_left (by simp [hstopping])
    cases bind <;>
      simp [GuardState.cancelHandler, GuardState.onAcceptSourceCancelled, hclosed, hstopping, hfd,
        hheld, hopen, hsources, hteardown, hpending, only, rebindListenSocket_eq,
        rebindListenSocket_failed]

/-- The accept loop pauses, or it leaves the state alone. -/
theorem acceptLoop_cases (host : Host) (s : GuardState) (results : List AcceptResult) :
    s.acceptLoop host results = s ∨
      (host.pauses = true ∧ s.acceptLoop host results = s.pauseAccepting) := by
  induction results with
  | nil => exact .inl rfl
  | cons r rest ih =>
    cases r with
    | connection => exact ih
    | eintr => exact ih
    | outOfFds =>
      cases hpauses : host.pauses with
      | true => exact .inr ⟨rfl, by simp [GuardState.acceptLoop, hpauses]⟩
      | false => exact .inl (by simp [GuardState.acceptLoop, hpauses])
    | drained => exact .inl rfl

/-- What is recorded stays recorded. -/
theorem Sound.identity_append (h : Sound host s) (ms : List Mark) (i : SocketPathIdentity)
    (hi : s.listenIdentity = some i) : .bound i ∈ s.trace ++ ms :=
  List.mem_append_left ms (h.identity i hi)

/-- **The source is cancelled**, to bind again or to stop. -/
theorem Sound.cancel (h : Sound host s) (hserving : ∃ id fd, s.acceptSource = some id ∧
      s.listenFd = some fd ∧ s.openFds = [fd] ∧ s.sources = only id ⟨fd, s.acceptPaused, false⟩ ∧
      .installed id fd ∈ s.trace)
    (hpurpose : s.stopping = true ∨ s.rebindPending = true) (hteardown : s.acceptTeardown = 1) :
    Kept host (s.cancelAcceptSource host) := by
  obtain ⟨id, fd, hsource, hfd, hopen, hsources, hinstalled⟩ := hserving
  rw [cancelAcceptSource_eq hsource hfd hsources fun hp => (h.paused hp).1]
  constructor
  · refine ⟨?_, h.guard, h.heldAtCancel, h.identity_append _, ?_, h.log.snoc rfl⟩
    · intro hp
      cases hp
    · rw [List.mem_append]
      exact ⟨fun hs => .inl (h.torn.1 hs), fun ht => h.torn.2 (ht.resolve_right (by simp))⟩
  · exact .inr (.inl ⟨hpurpose, hteardown, rfl, id, fd, rfl, hfd, hopen, rfl, rfl,
      List.mem_append_left _ hinstalled, by simp⟩)

/-- **An attempt to bind**, of a server that is unbound. -/
theorem Sound.rebind (h : Sound host s) (hunbound : Unbound s) (hstopping : s.stopping = false)
    (bind : BindOutcome) : Kept host (s.rebindListenSocket host bind) := by
  have htorn : .teardown ∉ s.trace := fun ht => by simp [h.torn.2 ht] at hstopping
  cases bind with
  | failed path =>
    rw [rebindListenSocket_failed hunbound.listenFd]
    obtain ⟨h₁, h₂, h₃, h₄, h₅, h₆, h₇⟩ := hunbound
    exact ⟨⟨h.paused, h.guard, h.heldAtCancel, h.identity, h.torn, h.log⟩,
      .inr (.inr ⟨h₁, h₂, h₃, h₄, h₅, h₆, h₇⟩)⟩
  | bound fd identity =>
    rw [rebindListenSocket_eq hunbound.listenFd]
    constructor
    · refine ⟨?_, h.guard, h.heldAtCancel, ?_, ?_, ?_⟩
      · intro hp
        rw [hunbound.acceptPaused] at hp
        cases hp
      · rintro i ⟨⟩
        simp
      · simpa using h.torn
      · have hbound : Accounted Mark.Right (s.trace ++ [.bound identity]) := h.log.snoc htorn
        have hboth := hbound.snoc (y := .installed s.nextSource fd)
          (show .teardown ∉ s.trace ++ [.bound identity] by simpa using htorn)
        simpa using hboth
    · refine .inl ⟨hstopping, rfl, ?_, rfl, s.nextSource, fd, rfl, rfl, ?_, ?_, ?_⟩
      · simp [hunbound.acceptTeardown]
      · simp [hunbound.openFds]
      · simp [hunbound.sources, hunbound.acceptPaused, only]
      · simp

namespace Kept

/-- Nothing but the path. -/
theorem path (h : Kept host s) (path : Option SocketPathIdentity) :
    Kept host { s with path := path } := by
  refine ⟨⟨h.paused, h.guard, h.heldAtCancel, h.identity, h.torn, h.log⟩, ?_⟩
  rcases h.shape with ⟨h₁, h₂, h₃, h₄, h₅⟩ | ⟨h₁, h₂, h₃, h₄⟩ | ⟨h₁, h₂, h₃, h₄, h₅, h₆, h₇⟩
  · exact .inl ⟨h₁, h₂, h₃, h₄, h₅⟩
  · exact .inr (.inl ⟨h₁, h₂, h₃, h₄⟩)
  · exact .inr (.inr ⟨h₁, h₂, h₃, h₄, h₅, h₆, h₇⟩)

/-- **Out of descriptors.** -/
theorem pause (h : Kept host s) (hpauses : host.pauses = true) : Kept host s.pauseAccepting := by
  cases hp : s.acceptPaused with
  | true =>
    have hsame : s.pauseAccepting = s := by cases hs : s.acceptSource <;> simp [GuardState.pauseAccepting, hs, hp]
    rw [hsame]
    exact h
  | false =>
    rcases h.shape with hs | hc | hu
    · obtain ⟨id, fd, hsource, hfd, hopen, hsources, hinstalled⟩ := hs.source
      have hpaused : s.pauseAccepting =
          { s with sources := only id ⟨fd, true, false⟩
                   acceptPaused := true
                   acceptRetryTimer := .armed } := by
        simp [GuardState.pauseAccepting, GuardState.alter, hsource, hsources, hp, only]
      rw [hpaused]
      refine ⟨⟨fun _ => ⟨hpauses, rfl⟩, h.guard, h.heldAtCancel, h.identity, h.torn, h.log⟩, ?_⟩
      exact .inl ⟨hs.stopping, hs.rebindPending, hs.acceptTeardown, hs.identity, id, fd, hsource,
        hfd, hopen, rfl, hinstalled⟩
    · obtain ⟨id, fd, hsource, -⟩ := hc.source
      simpa [GuardState.pauseAccepting, hsource] using h
    · simpa [GuardState.pauseAccepting, hu.acceptSource] using h

/-- **A look at the path.** -/
theorem check (h : Kept host s) (bind : BindOutcome) : Kept host (s.checkSocketPath host bind) := by
  unfold GuardState.checkSocketPath
  split
  · exact h
  next hstopping =>
    have hstopping : s.stopping = false := by simpa using hstopping
    split
    next hpending =>
      split
      next hfd =>
        -- unbound: in no other shape is there no listen descriptor
        rcases h.shape with hs | hc | hu
        · simp [hs.rebindPending] at hpending
        · obtain ⟨id, fd, -, hfd', -⟩ := hc.source
          simp [hfd] at hfd'
        · exact h.rebind hu hstopping bind
      · exact h
    next hpending =>
      split
      · exact h
      next hlost =>
        rw [not_or] at hlost
        rcases h.shape with hs | hc | hu
        · have hsound : Sound host { s with rebindPending := true } :=
            ⟨h.paused, h.guard, h.heldAtCancel, h.identity, h.torn, h.log⟩
          exact hsound.cancel hs.source (.inr rfl) hs.acceptTeardown
        · obtain ⟨id, fd, hsource, -⟩ := hc.source
          exact absurd hsource hlost.1
        · exact absurd hu.acceptSource hlost.1

/-- **The cancel handler**, which closes the descriptor and binds again. -/
theorem handler (h : Kept host s) {id : SourceId} {src : Source} (hsrc : s.sources id = some src)
    (hcancelled : src.cancelled = true) (bind : BindOutcome) :
    Kept host (s.cancelHandler host id bind) := by
  rcases h.shape with hs | hc | hu
  · -- the source of a server that serves has not been cancelled
    obtain ⟨id', fd, -, -, -, hsources, -⟩ := hs.source
    rw [hsources] at hsrc
    obtain ⟨-, rfl⟩ := only_eq_some hsrc
    cases hcancelled
  · obtain ⟨id', fd, hsource, hfd, hopen, hheld, hsources, hinstalled, hcancelled'⟩ := hc.source
    rw [hsources] at hsrc
    obtain ⟨rfl, rfl⟩ := only_eq_some hsrc
    rw [cancelHandler_eq hfd hopen hheld hsources hc.acceptTeardown hc.purpose]
    have hclosed : Accounted Mark.Right (s.trace ++ [.closed fd (some id)]) :=
      h.log.snoc ⟨id, rfl, hinstalled, hcancelled'⟩
    have htorn : s.stopping = true ↔ .teardown ∈ s.trace ++ [Mark.closed fd (some id)] := by
      simpa using h.torn
    split
    next hstopping =>
      exact ⟨⟨h.paused, h.guard, h.heldAtCancel, h.identity_append _, htorn, hclosed⟩,
        .inr (.inr ⟨.inl hstopping, rfl, hc.acceptPaused, hsource, rfl, rfl, rfl⟩)⟩
    next hstopping =>
      have hstopping : s.stopping = false := by simpa using hstopping
      have hpending : s.rebindPending = true := hc.purpose.resolve_left (by simp [hstopping])
      let t : GuardState :=
        { s with sources := fun _ => none
                 cancelledListener := none
                 listenFd := none
                 listenIdentity := none
                 openFds := []
                 acceptTeardown := 0
                 trace := s.trace ++ [.closed fd (some id)] }
      refine Sound.rebind (s := t) ?_ ?_ hstopping bind
      · exact ⟨h.paused, h.guard, h.heldAtCancel, by rintro i ⟨⟩, htorn, hclosed⟩
      · exact ⟨.inr hpending, rfl, hc.acceptPaused, hsource, rfl, rfl, rfl⟩
  · -- and an unbound server has none
    rw [hu.sources] at hsrc
    cases hsrc

/-- **The pause ends.** -/
theorem resume (h : Kept host s) :
    Kept host ({ s with acceptRetryTimer := .idle }.resumeAccepting) := by
  rcases h.shape with hs | hc | hu
  · obtain ⟨id, fd, hsource, hfd, hopen, hsources, hinstalled⟩ := hs.source
    have hresumed : ({ s with acceptRetryTimer := .idle }.resumeAccepting) =
        { s with sources := only id ⟨fd, false, false⟩
                 acceptPaused := false
                 acceptRetryTimer := .idle } := by
      cases hp : s.acceptPaused <;>
        simp [GuardState.resumeAccepting, GuardState.alter, hsource, hsources, hp, only]
    rw [hresumed]
    exact ⟨⟨by rintro ⟨⟩, h.guard, h.heldAtCancel, h.identity, h.torn, h.log⟩,
      .inl ⟨hs.stopping, hs.rebindPending, hs.acceptTeardown, hs.identity, id, fd, hsource, hfd,
        hopen, rfl, hinstalled⟩⟩
  · obtain ⟨id, fd, hsource, hrest⟩ := hc.source
    have hresumed : ({ s with acceptRetryTimer := .idle }.resumeAccepting) =
        { s with acceptPaused := false, acceptRetryTimer := .idle } := by
      simp [GuardState.resumeAccepting, hsource]
    rw [hresumed]
    exact ⟨⟨by rintro ⟨⟩, h.guard, h.heldAtCancel, h.identity, h.torn, h.log⟩,
      .inr (.inl ⟨hc.purpose, hc.acceptTeardown, rfl, id, fd, hsource, hrest⟩)⟩
  · have hresumed : ({ s with acceptRetryTimer := .idle }.resumeAccepting) =
        { s with acceptPaused := false, acceptRetryTimer := .idle } := by
      simp [GuardState.resumeAccepting, hu.acceptSource]
    rw [hresumed]
    exact ⟨⟨by rintro ⟨⟩, h.guard, h.heldAtCancel, h.identity, h.torn, h.log⟩,
      .inr (.inr ⟨hu.purpose, hu.acceptTeardown, rfl, hu.acceptSource, hu.listenFd, hu.openFds,
        hu.sources⟩)⟩

/-- **The teardown begins.** -/
theorem teardown (h : Kept host s) (hstopping : s.stopping = false) :
    Kept host (s.teardown host) := by
  have htorn : .teardown ∉ s.trace := fun ht => by simp [h.torn.2 ht] at hstopping
  have hlog : Accounted Mark.Right (s.trace ++ [.teardown]) := h.log.snoc htorn
  rcases h.shape with hs | hc | hu
  · -- the one source is cancelled, and resumed first if it was paused
    obtain ⟨id, fd, hsource, hfd, hopen, hsources, hinstalled⟩ := hs.source
    have hpauses : s.acceptPaused = true → host.pauses = true := fun hp => (h.paused hp).1
    have hcancelled : s.teardown host =
        { s with stopping := true
                 pathGuardTimer := false
                 acceptRetryTimer := .none
                 sources := only id ⟨fd, false, true⟩
                 acceptPaused := false
                 cancelledListener := some fd
                 acceptSource := none
                 trace := s.trace ++ [.teardown] ++ [.cancelled id false] } := by
      have hsome : s.acceptSource.isSome = true := by rw [hsource]; rfl
      unfold GuardState.teardown
      refine (if_pos hsome).trans ?_
      exact cancelAcceptSource_eq hsource hfd hsources hpauses
    rw [hcancelled]
    refine ⟨⟨by rintro ⟨⟩, rfl, h.heldAtCancel, ?_, by simp, hlog.snoc rfl⟩, .inr (.inl ?_)⟩
    · intro i hi
      rw [List.append_assoc]
      exact h.identity_append _ i hi
    · exact ⟨.inl rfl, hs.acceptTeardown, rfl, id, fd, rfl, hfd, hopen, rfl, rfl,
        by simp [hinstalled], by simp⟩
  · obtain ⟨id, fd, hsource, hfd, hopen, hheld, hsources, hinstalled, hcancelled⟩ := hc.source
    have hnothing : s.teardown host =
        { s with stopping := true
                 pathGuardTimer := false
                 acceptRetryTimer := .none
                 trace := s.trace ++ [.teardown] } := by
      simp [GuardState.teardown, GuardState.mark, hsource]
    rw [hnothing]
    exact ⟨⟨by simp [hc.acceptPaused], rfl, h.heldAtCancel, h.identity_append _, by simp, hlog⟩,
      .inr (.inl ⟨.inl rfl, hc.acceptTeardown, hc.acceptPaused, id, fd, hsource, hfd, hopen, hheld,
        hsources, List.mem_append_left _ hinstalled, List.mem_append_left _ hcancelled⟩)⟩
  · have hnothing : s.teardown host =
        { s with stopping := true
                 pathGuardTimer := false
                 acceptRetryTimer := .none
                 trace := s.trace ++ [.teardown] } := by
      simp [GuardState.teardown, GuardState.mark, hu.acceptSource]
    rw [hnothing]
    exact ⟨⟨by simp [hu.acceptPaused], rfl, h.heldAtCancel, h.identity_append _, by simp, hlog⟩,
      .inr (.inr ⟨.inl rfl, hu.acceptTeardown, hu.acceptPaused, hu.acceptSource, hu.listenFd,
        hu.openFds, hu.sources⟩)⟩

/-- **And ends**, when every cancel handler has run. -/
theorem finish (h : Kept host s) (hstopping : s.stopping = true)
    (hteardown : s.acceptTeardown = 0) : Kept host (s.finish host) := by
  have htorn : .teardown ∈ s.trace := h.torn.1 hstopping
  rcases h.shape with hs | hc | hu
  · simp [hs.stopping] at hstopping
  · simp [hc.acceptTeardown] at hteardown
  · have hforgotten : ∀ ms i, (if host = Host.prompterServer then none else s.listenIdentity) =
        some i → .bound i ∈ s.trace ++ ms := by
      intro ms i hi
      split at hi
      · cases hi
      · exact h.identity_append ms i hi
    unfold GuardState.finish
    split
    next hnames =>
      obtain ⟨identity, hidentity, hpath⟩ := hnames
      have hfinished : Kept host
          { s with path := none
                   stopped := true
                   listenIdentity := if host = Host.prompterServer then none else s.listenIdentity
                   trace := s.trace ++ [.unlinked s.path] } := by
        refine ⟨⟨h.paused, h.guard, h.heldAtCancel, hforgotten _, ?_, h.log.snoc ?_⟩, ?_⟩
        · simpa using h.torn
        · exact ⟨htorn, identity, hpath, h.identity identity hidentity⟩
        · exact .inr (.inr ⟨hu.purpose, hu.acceptTeardown, hu.acceptPaused, hu.acceptSource,
            hu.listenFd, hu.openFds, hu.sources⟩)
      simpa [GuardState.mark, GuardState.closeListenFd, hu.listenFd] using hfinished
    next hnames =>
      have hfinished : Kept host
          { s with stopped := true
                   listenIdentity :=
                     if host = Host.prompterServer then none else s.listenIdentity } := by
        refine ⟨⟨h.paused, h.guard, h.heldAtCancel, ?_, h.torn, h.log⟩, ?_⟩
        · simpa using hforgotten []
        · exact .inr (.inr ⟨hu.purpose, hu.acceptTeardown, hu.acceptPaused, hu.acceptSource,
            hu.listenFd, hu.openFds, hu.sources⟩)
      simpa [GuardState.closeListenFd, hu.listenFd] using hfinished

/-- **Every handler keeps it.** -/
theorem step {i : GuardInput} {s' : GuardState} (h : Kept host s) (hstep : s.step host i = some s') :
    Kept host s' := by
  cases i with
  | acceptReady id results bind =>
    simp only [GuardState.step] at hstep
    split at hstep
    · cases hstep
    split at hstep
    · cases hstep
      unfold GuardState.onAcceptReady
      rcases acceptLoop_cases host s results with hsame | ⟨hpauses, hpaused⟩
      · rw [hsame]
        exact h.check bind
      · rw [hpaused]
        exact (h.pause hpauses).check bind
    · cases hstep
  | guardTick bind =>
    simp only [GuardState.step] at hstep
    split at hstep
    · cases hstep
      exact h.check bind
    · cases hstep
  | retryFired =>
    simp only [GuardState.step] at hstep
    split at hstep
    · cases hstep
      exact h.resume
    · cases hstep
  | cancelHandler id bind =>
    simp only [GuardState.step] at hstep
    split at hstep
    · cases hstep
    next src hsrc =>
      split at hstep
      next hready =>
        cases hstep
        exact h.handler hsrc hready.2 bind
      · cases hstep
  | replaced path =>
    cases hstep
    exact h.path path
  | teardown =>
    simp only [GuardState.step] at hstep
    split at hstep
    · cases hstep
    next hstopping =>
      cases hstep
      exact h.teardown (by simpa using hstopping)
  | finish =>
    simp only [GuardState.step] at hstep
    split at hstep
    next hready =>
      cases hstep
      exact h.finish hready.1 hready.2.1
    · cases hstep

end Kept

/-- The server accepts on `fd`. -/
def ServesOn (s : GuardState) (fd : Fd) : Prop :=
  ∃ id src, s.acceptSource = some id ∧ s.sources id = some src ∧ src.fd = fd ∧
    src.cancelled = false ∧ s.listenFd = some fd ∧ fd ∈ s.openFds

theorem Serving.servesOn (h : Serving s) : ∃ fd, ServesOn s fd := by
  obtain ⟨id, fd, hsource, hfd, hopen, hsources, -⟩ := h.source
  exact ⟨fd, id, _, hsource, by rw [hsources]; exact only_self id _, rfl, rfl, hfd, by simp [hopen]⟩

end Listener

end LibreDarwin
