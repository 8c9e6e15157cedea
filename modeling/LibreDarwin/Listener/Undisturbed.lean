import LibreDarwin.Listener.Servers

/-!
# A server whose path is left alone

While nobody but the servers touches the socket path, the file there is that
of the server that is up, from the call that binds it to the call that
removes it (`Settled.step`): the guard finds nothing to do, the identity a
bind records is that of its own file, and the file a server takes with it
is its own (`undisturbed`).
-/

namespace LibreDarwin

namespace Listener

open Function

section Guard

variable {host : Host} {g g' : GuardState}

theorem stays_resumeAccepting (g : GuardState) : Stays g g.resumeAccepting := by
  unfold GuardState.resumeAccepting
  split
  · split
    · exact ⟨rfl, rfl, rfl, rfl, rfl⟩
    · exact ⟨rfl, rfl, rfl, rfl, rfl⟩
  · exact ⟨rfl, rfl, rfl, rfl, rfl⟩

theorem stays_acceptLoop (host : Host) (g : GuardState) (results : List AcceptResult) :
    Stays g (g.acceptLoop host results) := by
  rcases acceptLoop_cases host g results with heq | ⟨-, heq⟩
  · rw [heq]
    exact ⟨rfl, rfl, rfl, rfl, rfl⟩
  · rw [heq]
    unfold GuardState.pauseAccepting
    split
    · exact ⟨rfl, rfl, rfl, rfl, rfl⟩
    · split
      · exact ⟨rfl, rfl, rfl, rfl, rfl⟩
      · exact ⟨rfl, rfl, rfl, rfl, rfl⟩

theorem stays_cancelAcceptSource (host : Host) (g : GuardState) :
    Stays g (g.cancelAcceptSource host) := by
  have hresumed : Stays g (if host.pauses then g.resumeAccepting else g) := by
    split
    · exact stays_resumeAccepting g
    · exact ⟨rfl, rfl, rfl, rfl, rfl⟩
  unfold GuardState.cancelAcceptSource
  generalize (if host.pauses then g.resumeAccepting else g) = u at hresumed ⊢
  cases hsource : u.acceptSource with
  | none => simpa [hsource] using hresumed
  | some id => exact hresumed.trans (by simp only [hsource]; exact ⟨rfl, rfl, rfl, rfl, rfl⟩)

theorem stays_teardown (host : Host) (g : GuardState) :
    Stays ({ g with stopping := true } : GuardState) (g.teardown host) := by
  have hmarked : Stays ({ g with stopping := true } : GuardState)
      ({ g with stopping := true
                pathGuardTimer := false
                acceptRetryTimer := .none }.mark .teardown) := ⟨rfl, rfl, rfl, rfl, rfl⟩
  have hteardown : g.teardown host =
      if g.acceptSource.isSome = true then
        ({ g with stopping := true
                  pathGuardTimer := false
                  acceptRetryTimer := .none }.mark .teardown).cancelAcceptSource host
      else { g with stopping := true
                    pathGuardTimer := false
                    acceptRetryTimer := .none }.mark .teardown := rfl
  rw [hteardown]
  split
  · exact hmarked.trans (stays_cancelAcceptSource host _)
  · exact hmarked

/-- A look at a path that is the server's own changes nothing. -/
theorem checkSocketPath_eq (hpending : g.rebindPending = false)
    (hnames : g.stopping = false → g.StillNames) (bind : BindOutcome) :
    g.checkSocketPath host bind = g := by
  unfold GuardState.checkSocketPath
  split
  · rfl
  · next hstopping =>
    rw [if_neg (by simp [hpending]), if_pos (.inr (hnames (by simpa using hstopping)))]

/-- **While the path names its file** a server binds nothing, and until its
teardown it cancels nothing. -/
theorem Kept.settled_step (hk : Kept host g) (hpending : g.rebindPending = false)
    (hnames : g.stopping = false → g.StillNames) {i : GuardInput} (h : g.step host i = some g')
    (hi : ∀ path, i ≠ .replaced path) (hfinish : i ≠ .finish) :
    g'.listenIdentity = g.listenIdentity ∧ g'.rebindPending = false ∧ g'.stopped = g.stopped ∧
      (g.stopping = true → g'.stopping = true) := by
  have hstays : ∀ {u}, Stays g u → u.listenIdentity = g.listenIdentity ∧ u.rebindPending = false ∧
      u.stopped = g.stopped ∧ (g.stopping = true → u.stopping = true) :=
    fun hu => ⟨hu.1, hu.2.trans hpending, hu.3, fun hs => hu.4.trans hs⟩
  cases i with
  | acceptReady id results bind =>
    simp only [GuardState.step] at h
    split at h
    · cases h
    · split at h
      · obtain rfl := Option.some.inj h
        have hloop := stays_acceptLoop host g results
        unfold GuardState.onAcceptReady
        rw [checkSocketPath_eq (hloop.rebindPending.trans hpending)]
        · exact hstays hloop
        · intro hstopping
          obtain ⟨identity, hmem, hpath⟩ := hnames (hloop.stopping ▸ hstopping)
          exact ⟨identity, by rwa [hloop.listenIdentity], hloop.path.trans hpath⟩
      · cases h
  | guardTick bind =>
    simp only [GuardState.step] at h
    split at h
    · obtain rfl := Option.some.inj h
      rw [checkSocketPath_eq hpending hnames]
      exact ⟨rfl, hpending, rfl, id⟩
    · cases h
  | retryFired =>
    simp only [GuardState.step] at h
    split at h
    · obtain rfl := Option.some.inj h
      have hfired : Stays g { g with acceptRetryTimer := .idle } := ⟨rfl, rfl, rfl, rfl, rfl⟩
      exact hstays (hfired.trans (stays_resumeAccepting _))
    · cases h
  | cancelHandler id bind =>
    simp only [GuardState.step] at h
    split at h
    · cases h
    next src hsrc =>
      split at h
      next hready =>
        obtain rfl := Option.some.inj h
        rcases hk.shape with hs | hc | hu
        · -- a source that is the accept source has not been cancelled
          obtain ⟨id', fd, -, -, -, hsources, -⟩ := hs.source
          rw [hsources] at hsrc
          obtain ⟨-, rfl⟩ := only_eq_some hsrc
          exact absurd hready.2 (by simp)
        · obtain ⟨id', fd, -, hfd, hopen, hheld, hsources, -⟩ := hc.source
          have hstopping : g.stopping = true := hc.purpose.resolve_right (by simp [hpending])
          rw [hsources] at hsrc
          obtain ⟨rfl, rfl⟩ := only_eq_some hsrc
          rw [cancelHandler_eq hfd hopen hheld hsources hc.acceptTeardown hc.purpose]
          simp only [if_pos hstopping]
          exact ⟨trivial, hpending, trivial, fun h => h⟩
        · simp [hu.sources] at hsrc
      · cases h
  | replaced path => exact absurd rfl (hi path)
  | teardown =>
    simp only [GuardState.step] at h
    split at h
    · cases h
    · obtain rfl := Option.some.inj h
      have htorn := stays_teardown host g
      exact ⟨htorn.listenIdentity, htorn.rebindPending.trans hpending, htorn.stopped,
        fun _ => htorn.stopping⟩
  | finish => exact absurd rfl hfinish

/-- Nor does any handler come to bind. -/
theorem binds_eq_false (h : g.rebindPending = false) (handler : Handler) :
    g.binds host handler = false := by
  cases handler with
  | acceptReady id results =>
    simp [GuardState.binds, GuardState.retries, (stays_acceptLoop host g results).rebindPending, h]
  | guardTick => simp [GuardState.binds, GuardState.retries, h]
  | cancelHandler id => simp [GuardState.binds, h]

/-- The end of a server, once its file is gone or was another's. -/
theorem finish_eq (host : Host) (g : GuardState) :
    (g.finish host).stopping = g.stopping ∧ (g.finish host).stopped = true ∧
      (g.finish host).rebindPending = g.rebindPending := by
  unfold GuardState.finish
  refine ⟨(stays_closeListenFd _ _).stopping.trans ?_, (stays_closeListenFd _ _).stopped,
    (stays_closeListenFd _ _).rebindPending.trans ?_⟩
  · split <;> rfl
  · split <;> rfl

end Guard

variable {P : Type*} [DecidableEq P] {host : Host} {s t : ServersState P} {p : P}

/-- **Where a server may be** while others leave the path alone. -/
inductive Settled (host : Host) (path : Option (SocketFile P)) (p : P) :
    Option GuardState → Calls → Prop
  | down : Settled host path p none .none
  | failed : Settled host path p none .failed
  | unlinking : Settled host path p none (.unlinking none)
  | binding : Settled host path p none (.binding none)
  | recording {identity : SocketPathIdentity} {fd : Fd} (hpath : path = some ⟨identity, some p⟩) :
      Settled host path p none (.recording none fd)
  | listening {identity : SocketPathIdentity} {fd : Fd} (hpath : path = some ⟨identity, some p⟩) :
      Settled host path p none (.listening none fd identity)
  | up {g : GuardState} {identity : SocketPathIdentity} (hkept : Kept host g)
      (hpath : path = some ⟨identity, some p⟩) (hidentity : g.listenIdentity = some identity)
      (hpending : g.rebindPending = false) (hstopped : g.stopped = false) :
      Settled host path p (some g) .none
  | removing {g : GuardState} {identity : SocketPathIdentity} (hkept : Kept host g)
      (hpath : path = some ⟨identity, some p⟩) (hidentity : g.listenIdentity = some identity)
      (hpending : g.rebindPending = false) (hstopped : g.stopped = false) :
      Settled host path p (some g) .removing
  | stopped {g : GuardState} (hkept : Kept host g) (hpending : g.rebindPending = false)
      (hstopping : g.stopping = true) (hstopped : g.stopped = true) :
      Settled host path p (some g) .none

namespace Settled

open ServersState

variable {path : Option (SocketFile P)}

omit [DecidableEq P] in
/-- **A handler, or the teardown**, of a server that calls nothing. -/
theorem handler {g₀ g g' : GuardState} {i : GuardInput}
    (h : Settled host path p (some g₀) .none)
    (hnow : { g₀ with path := path.map SocketFile.identity } = g) (hst : g.step host i = some g')
    (hi : ∀ path, i ≠ .replaced path) (hfinish : i ≠ .finish) :
    Settled host path p (some g') .none := by
  subst hnow
  cases h with
  | up hkept hpath hidentity hpending hstopped =>
    have hkept' := (hkept.path (path.map SocketFile.identity)).step hst
    obtain ⟨hidentity', hpending', hstopped', -⟩ :=
      (hkept.path (path.map SocketFile.identity)).settled_step hpending
        (fun _ => ⟨_, hidentity, congrArg (Option.map SocketFile.identity) hpath⟩) hst hi hfinish
    exact .up hkept' hpath (hidentity'.trans hidentity) hpending' (hstopped'.trans hstopped)
  | stopped hkept hpending hstopping hstopped =>
    have hkept' := (hkept.path (path.map SocketFile.identity)).step hst
    obtain ⟨-, hpending', hstopped', hstopping'⟩ :=
      (hkept.path (path.map SocketFile.identity)).settled_step hpending
        (fun hs => absurd hs (by simp [hstopping])) hst hi hfinish
    exact .stopped hkept' hpending' (hstopping' hstopping) (hstopped'.trans hstopped)

/-- A server without a listener whose bind fails. -/
theorem start_failed (hlistener : s.listener p = none) (hst : s.unbound host p none = some t) :
    Settled host t.path p (t.listener p) (t.calls p) := by
  rcases bound_cases hst with ⟨-, fd, identity, hbind, -⟩ | ⟨-, rfl⟩ | ⟨_, _, _, hhandler, -⟩
  · cases hbind
  · rw [calls_goto]
    exact hlistener ▸ .failed
  · cases hhandler

/-- A step of the listener's, alone. -/
theorem stepListener {i : GuardInput} (h : Settled host s.path p (s.listener p) (s.calls p))
    (hcalls : s.calls p = .none) (hst : s.stepListener host p i = some t)
    (hi : ∀ path, i ≠ .replaced path) (hfinish : i ≠ .finish) :
    Settled host t.path p (t.listener p) (t.calls p) := by
  obtain ⟨g, g', hg, hstep, rfl⟩ := stepListener_eq_some.1 hst
  obtain ⟨g₀, hg₀, hnow⟩ := listenerNow_eq_some.1 hg
  rw [hg₀, hcalls] at h
  rw [listener_setListener]
  exact hcalls ▸ h.handler hnow hstep hi hfinish

/-- **Its own step** leaves a server settled. -/
theorem step {i : ServersInput P} (h : Settled host s.path p (s.listener p) (s.calls p))
    (hst : s.step host i = some t) (hi : i.server = some p) :
    Settled host t.path p (t.listener p) (t.calls p) := by
  cases i with
  | lock j =>
    obtain ⟨-, hpath, ⟨-, hlistener, hcalls⟩ | ⟨q, hj, ht⟩⟩ := stepLock_cases hst
    · rw [hpath, hlistener, hcalls]
      exact h
    · obtain rfl : p = q := by
        rcases hj with ⟨rfl, -⟩ | rfl
        · exact (Option.some.inj hi).symm
        · exact (Option.some.inj hi).symm
      rw [ht]
      simp only [goto, setListener, update_self]
      exact .down
  | others file => cases hi
  | start q =>
    obtain rfl := Option.some.inj hi
    simp only [ServersState.step] at hst
    split at hst
    · next hlistener hcalls =>
      obtain rfl := Option.some.inj hst
      rw [calls_goto]
      exact hlistener ▸ .unlinking
    · cases hst
  | handler q h' =>
    obtain rfl := Option.some.inj hi
    simp only [ServersState.step] at hst
    split at hst
    · next hcalls =>
      obtain ⟨g, hg, hmap⟩ := Option.bind_eq_some_iff.1 hst
      obtain ⟨g', hstep, ht⟩ := Option.map_eq_some_iff.1 hmap
      obtain ⟨g₀, hg₀, hnow⟩ := listenerNow_eq_some.1 hg
      rw [hg₀, hcalls] at h
      have hpending : g.rebindPending = false := by
        subst hnow
        cases h with
        | up hkept hpath hidentity hpending hstopped => exact hpending
        | stopped hkept hpending hstopping hstopped => exact hpending
      rw [binds_eq_false hpending h'] at ht
      obtain rfl : s.setListener q (some g') = t := ht
      rw [listener_setListener]
      refine hcalls ▸ h.handler hnow hstep ?_ ?_
      · cases h' <;> simp [Handler.input]
      · cases h' <;> simp [Handler.input]
    · cases hst
  | retryFired q =>
    obtain rfl := Option.some.inj hi
    simp only [ServersState.step] at hst
    split at hst
    · next hcalls => exact h.stepListener hcalls hst (by simp) (by simp)
    · cases hst
  | unlink q ok =>
    obtain rfl := Option.some.inj hi
    simp only [ServersState.step] at hst
    split at hst
    · next h' hcalls =>
      obtain rfl := Option.some.inj hst
      rw [hcalls] at h
      generalize hl : s.listener q = l at h
      cases h
      rw [calls_goto]
      exact hl ▸ .binding
    · cases hst
  | bind q ok fd ino =>
    obtain rfl := Option.some.inj hi
    simp only [ServersState.step] at hst
    split at hst
    · next h' hcalls =>
      rw [hcalls] at h
      generalize hl : s.listener q = l at h
      cases h
      split at hst
      · obtain rfl := Option.some.inj hst
        rw [calls_goto]
        exact hl ▸ .recording rfl
      · exact start_failed hl hst
    · cases hst
  | record q ok =>
    obtain rfl := Option.some.inj hi
    simp only [ServersState.step] at hst
    split at hst
    · next h' fd hcalls =>
      rw [hcalls] at h
      generalize hl : s.listener q = l at h
      cases h with
      | recording hpath =>
        simp only [hpath] at hst
        split at hst
        · obtain rfl := Option.some.inj hst
          rw [calls_goto]
          exact hl ▸ .listening hpath
        · exact start_failed hl hst
    · cases hst
  | listen q ok =>
    obtain rfl := Option.some.inj hi
    simp only [ServersState.step] at hst
    split at hst
    · next h' fd identity hcalls =>
      rw [hcalls] at h
      generalize hl : s.listener q = l at h
      cases h with
      | listening hpath =>
        split at hst
        · obtain rfl := Option.some.inj hst
          rw [calls_goto]
          have hcreated : ((s.setListener q (some (.created fd identity))).goto q .none).listener q =
              some (.created fd identity) := listener_setListener s q _
          rw [hcreated]
          exact .up (.created fd identity) hpath rfl rfl rfl
        · exact start_failed hl hst
    · cases hst
  | teardown q =>
    obtain rfl := Option.some.inj hi
    simp only [ServersState.step] at hst
    split at hst
    · next hcalls => exact h.stepListener hcalls hst (by simp) (by simp)
    · cases hst
  | look q =>
    obtain rfl := Option.some.inj hi
    simp only [ServersState.step] at hst
    split at hst
    · next hcalls =>
      obtain ⟨g, hg, hmap⟩ := Option.bind_eq_some_iff.1 hst
      obtain ⟨g', hstep, ht⟩ := Option.map_eq_some_iff.1 hmap
      obtain ⟨g₀, hg₀, rfl⟩ := listenerNow_eq_some.1 hg
      rw [hg₀, hcalls] at h
      cases h with
      | up hkept hpath hidentity hpending hstopped =>
        have hnames : GuardState.StillNames { g₀ with path := s.path.map SocketFile.identity } :=
          ⟨_, hidentity, congrArg (Option.map SocketFile.identity) hpath⟩
        rw [if_pos hnames] at ht
        subst ht
        rw [calls_goto]
        have hkept' := hkept.path (s.path.map SocketFile.identity)
        have hlistener := listener_setListener s q
          (some { g₀ with path := s.path.map SocketFile.identity })
        exact hlistener.symm ▸ .removing hkept' hpath hidentity hpending hstopped
      | stopped hkept hpending hstopping hstopped =>
        simp [GuardState.step, hstopped] at hstep
    · cases hst
  | remove q ok =>
    obtain rfl := Option.some.inj hi
    simp only [ServersState.step] at hst
    split at hst
    · next hcalls =>
      obtain ⟨g, hg, hmap⟩ := Option.bind_eq_some_iff.1 hst
      obtain ⟨g', hstep, rfl⟩ := Option.map_eq_some_iff.1 hmap
      rw [hg, hcalls] at h
      cases h with
      | removing hkept hpath hidentity hpending hstopped =>
        have hkept' := hkept.step hstep
        simp only [GuardState.step] at hstep
        split at hstep
        · next hready =>
          obtain rfl := Option.some.inj hstep
          obtain ⟨hstopping, hended, hpending'⟩ := finish_eq host g
          simp only [goto, setListener, update_self]
          exact .stopped hkept' (hpending'.trans hpending) (hstopping.trans hready.1) hended
        · cases hstep
    · cases hst

end Settled

/-- **Every server is settled**, and who is up holds the lock. -/
structure Orderly (host : Host) (s : ServersState P) : Prop where
  held : Held s
  settled : ∀ p, Settled host s.path p (s.listener p) (s.calls p)

omit [DecidableEq P] in
theorem Down.orderly (h : Down s) : Orderly host s where
  held := h.held
  settled p := by
    rw [h.listener, h.calls]
    exact .down

/-- **Every step of the servers' keeps it.** -/
theorem Orderly.step {i : ServersInput P} (h : Orderly host s) (hst : s.step host i = some t)
    (hi : i.server ≠ none) : Orderly host t := by
  refine ⟨h.held.step hst, fun q => ?_⟩
  by_cases hq : i.server = some q
  · exact (h.settled q).step hst hq
  · rcases ServersState.step_cases hst with ⟨j, rfl, hj⟩ | ⟨file, rfl, -⟩ | ⟨p, hp, hown⟩
    · obtain ⟨-, hpath, ⟨-, hlistener, hcalls⟩ | ⟨p, hp, ht⟩⟩ := ServersState.stepLock_cases hj
      · rw [hpath, hlistener, hcalls]
        exact h.settled q
      · have hne : q ≠ p := by
          rintro rfl
          rcases hp with ⟨rfl, -⟩ | rfl
          · exact hq rfl
          · exact hq rfl
        rw [hpath, ht]
        simp only [ServersState.goto, ServersState.setListener, update_of_ne hne]
        exact h.settled q
    · exact absurd rfl hi
    · have hne : q ≠ p := by
        rintro rfl
        exact hq hp
      rw [hown.only.listener q hne, hown.only.calls q hne]
      rcases hown.path with hpath | hbusy
      · rw [hpath]
        exact h.settled q
      · -- who changes the path is up, so `q` is not
        have hdown : ¬ s.Up q := fun hup => hne (h.held.unique hup (.inr hbusy))
        rw [ServersState.Up, not_or, not_not, not_not] at hdown
        rw [hdown.1, hdown.2]
        exact .down

theorem orderly_run {s₀ : ServersState P} {is : List (ServersInput P)} (hinit : Down s₀)
    (h : (servers P host).RunWhere (fun _ i => i.server ≠ none) s₀ is s) :
    Orderly host s :=
  h.invariant (fun _ _ _ hs hi hst => hs.step hst hi) hinit.orderly

/-- **The path is left alone.** When nobody but the servers touches it, in
every order of their calls and with deaths at any moment: the socket path
names the file of the server that is up, until its teardown that server
serves, and its guard has nothing to bind again; what a bind records is the
file it bound; and what a server removes at its end is its own file. -/
theorem undisturbed {s₀ : ServersState P} {is : List (ServersInput P)} (hinit : Down s₀)
    (h : (servers P host).RunWhere (fun _ i => i.server ≠ none) s₀ is s) :
    (∀ p g, s.listener p = some g → g.stopped = false →
      (∃ identity, g.listenIdentity = some identity ∧ s.path = some ⟨identity, some p⟩) ∧
        g.rebindPending = false ∧ (g.stopping = false → ∃ fd, ServesOn g fd)) ∧
    (∀ p handler fd identity, s.calls p = .listening handler fd identity →
      s.path = some ⟨identity, some p⟩) ∧
    ∀ p, s.calls p = .removing → ∃ identity, s.path = some ⟨identity, some p⟩ := by
  have horderly := orderly_run hinit h
  refine ⟨fun p g hg hstopped => ?_, fun p handler fd identity hcalls => ?_, fun p hcalls => ?_⟩
  · have hsettled := horderly.settled p
    rw [hg] at hsettled
    generalize s.calls p = c at hsettled
    have hserves : Kept host g → g.rebindPending = false → g.stopping = false →
        ∃ fd, ServesOn g fd := by
      intro hkept hpending hstopping
      have hpurpose : ¬ (g.stopping = true ∨ g.rebindPending = true) := by simp [hstopping, hpending]
      rcases hkept.shape with hs | hc | hu
      · exact hs.servesOn
      · exact absurd hc.purpose hpurpose
      · exact absurd hu.purpose hpurpose
    cases hsettled with
    | up hkept hpath hidentity hpending _ =>
      exact ⟨⟨_, hidentity, hpath⟩, hpending, hserves hkept hpending⟩
    | removing hkept hpath hidentity hpending _ =>
      exact ⟨⟨_, hidentity, hpath⟩, hpending, hserves hkept hpending⟩
    | stopped hkept hpending hstopping hstopped' => simp [hstopped'] at hstopped
  · have hsettled := horderly.settled p
    rw [hcalls] at hsettled
    generalize s.listener p = l at hsettled
    cases hsettled with
    | listening hpath => exact hpath
  · have hsettled := horderly.settled p
    rw [hcalls] at hsettled
    generalize s.listener p = l at hsettled
    cases hsettled with
    | removing hkept hpath hidentity hpending hstopped => exact ⟨_, hpath⟩

/-- One server stops while the other has bound nothing yet. -/
theorem undisturbed_handover :
    ∃ s, (servers ℕ .socketTransport).run (.down ℕ none) (handover.take 19) = some s ∧
      (∃ identity, s.path = some ⟨identity, some 0⟩) ∧ s.calls 0 = .removing := by
  have hrun : ∀ s, ((servers ℕ .socketTransport).guarded fun _ i => i.server ≠ none).run
      (.down ℕ none) (handover.take 19) = some s →
      (servers ℕ .socketTransport).RunWhere (fun _ i => i.server ≠ none) (.down ℕ none)
        (handover.take 19) s := fun s hs => Machine.runWhere_of_guarded hs
  refine ⟨_, rfl, ?_, rfl⟩
  exact (undisturbed (ServersState.down_down ℕ none) (hrun _ rfl)).2.2 0 rfl

end Listener

end LibreDarwin
