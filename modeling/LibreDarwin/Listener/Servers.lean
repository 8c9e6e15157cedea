import LibreDarwin.Instance.Lock
import LibreDarwin.Listener.Guard
import LibreDarwin.Listener.Model.Servers

/-!
# One socket, and whose it is

A server that is up holds the instance lock (`Held`), so one server is up at
a time and no other touches the socket path meanwhile (`one_socket`): a
successor never loses its file to the removal of the one before it, and a
second instance leaves the first one's file alone.
-/

namespace LibreDarwin

namespace Listener

open Function
open Instance (LockState LockInput Pc)

section Lock

open Instance

variable {P : Type*} [DecidableEq P] {s t : LockState P}

omit [DecidableEq P] in
/-- Two that hold the lock are one. -/
theorem holding_unique (h : Instance.Kept s) {p q : P} {f g : File} (hp : s.pc p = .holding f)
    (hq : s.pc q = .holding g) : p = q := by
  have hnames : s.path = some f := h.names p f (by rw [hp]; rfl)
  have hnames' : s.path = some g := h.names q g (by rw [hq]; rfl)
  obtain rfl : f = g := Option.some.inj (hnames.symm.trans hnames')
  exact h.alone p q f ((h.locks p f).2 (by rw [hp]; rfl)) ((h.locks q f).2 (by rw [hq]; rfl))

/-- A call moves its own contender and no other. -/
theorem pc_step_of_ne {i : LockInput P} (h : s.step i = some t) {q : P} (hq : q ≠ i.contender) :
    t.pc q = s.pc q := by
  -- whatever else the call does, it sends its contender on
  have hgoto : ∀ (u : LockState P) (c : Pc), u.pc = s.pc → (u.goto i.contender c).pc q = s.pc q := by
    intro u c hu
    rw [pc_goto_of_ne u hq c, hu]
  cases i with
  | acquire p =>
    simp only [LockState.step] at h
    split at h <;> cases h
    · exact hgoto s _ rfl
    · exact hgoto s _ rfl
  | openCreate p ok ino =>
    simp only [LockState.step, LockState.openCreate] at h
    split at h
    · split at h
      · split at h
        · cases h
          exact hgoto _ _ rfl
        · split at h <;> cases h
          exact hgoto _ _ rfl
      · cases h
        exact hgoto s _ rfl
    · cases h
  | fstat p ok =>
    simp only [LockState.step] at h
    split at h <;> cases h
    exact hgoto s _ rfl
  | flock p ok =>
    simp only [LockState.step] at h
    split at h
    · split at h
      · cases h
        exact hgoto s _ rfl
      · split at h <;> cases h
        · exact hgoto _ _ rfl
        · exact hgoto s _ rfl
    · cases h
  | lstat p ok =>
    simp only [LockState.step] at h
    split at h <;> cases h
    · exact hgoto s _ rfl
    · exact hgoto s _ rfl
  | unlink p ok =>
    simp only [LockState.step] at h
    split at h <;> cases h
    exact hgoto _ _ rfl
  | close p =>
    simp only [LockState.step] at h
    split at h <;> cases h
    · split
      · exact hgoto (s.drop p) _ rfl
      · exact hgoto (s.drop p) _ rfl
    · exact hgoto (s.drop p) _ rfl
    · exact hgoto (s.drop p) _ rfl
  | bind p =>
    simp only [LockState.step] at h
    split at h <;> cases h
    rfl
  | release p =>
    simp only [LockState.step] at h
    split at h <;> cases h
    exact hgoto s _ rfl
  | exit p =>
    cases h
    exact hgoto (s.drop p) _ rfl

/-- **Whoever holds the lock** makes no call of `acquire`; it lets go of the lock or dies. -/
theorem step_of_holding {i : LockInput P} (h : s.step i = some t) {f : File}
    (hp : s.pc i.contender = .holding f) :
    i = .bind i.contender ∨ i = .release i.contender ∨ i = .exit i.contender := by
  cases i <;> simp_all [LockState.step, LockInput.contender]

end Lock

section Handlers

variable {host : Host} {g g' : GuardState}

/-- What no handler changes while the path names the server's file. -/
structure Stays (g g' : GuardState) : Prop where
  listenIdentity : g'.listenIdentity = g.listenIdentity
  rebindPending : g'.rebindPending = g.rebindPending
  stopped : g'.stopped = g.stopped
  stopping : g'.stopping = g.stopping
  path : g'.path = g.path

theorem Stays.trans {g'' : GuardState} (h : Stays g g') (h' : Stays g' g'') : Stays g g'' where
  listenIdentity := h'.listenIdentity.trans h.listenIdentity
  rebindPending := h'.rebindPending.trans h.rebindPending
  stopped := h'.stopped.trans h.stopped
  stopping := h'.stopping.trans h.stopping
  path := h'.path.trans h.path

theorem stays_closeListenFd (g : GuardState) (id : Option SourceId) :
    Stays g (g.closeListenFd id) := by
  unfold GuardState.closeListenFd
  split <;> exact ⟨rfl, rfl, rfl, rfl, rfl⟩

theorem checkSocketPath_bind (h : g.retries = false) (bind bind' : BindOutcome) :
    g.checkSocketPath host bind = g.checkSocketPath host bind' := by
  unfold GuardState.checkSocketPath
  split
  · rfl
  next hstopping =>
    split
    next hpending =>
      have hfd : g.listenFd ≠ none := by
        intro hfd
        simp [GuardState.retries, hstopping, hpending, hfd] at h
      rw [if_neg hfd, if_neg hfd]
    · rfl

theorem onAcceptSourceCancelled_bind {id : SourceId}
    (h : g.stopping = true ∨ g.rebindPending = false) (bind bind' : BindOutcome) :
    g.onAcceptSourceCancelled host id bind = g.onAcceptSourceCancelled host id bind' := by
  -- whether the listener was still held is only counted
  have hcounted : ∀ u : GuardState, u.stopping = true ∨ u.rebindPending = false →
      (let s := { u with cancelledListener := none }.closeListenFd (some id)
       if s.stopping then s
       else
         let s := { s with listenIdentity := none }
         if s.rebindPending then s.rebindListenSocket host bind else s) =
      (let s := { u with cancelledListener := none }.closeListenFd (some id)
       if s.stopping then s
       else
         let s := { s with listenIdentity := none }
         if s.rebindPending then s.rebindListenSocket host bind' else s) := by
    intro u hu
    have hstays := stays_closeListenFd { u with cancelledListener := none } (some id)
    generalize { u with cancelledListener := none }.closeListenFd (some id) = v at hstays ⊢
    rcases hu with hstopping | hpending
    · have hv : v.stopping = true := hstays.stopping.trans hstopping
      simp only [hv, if_true]
    · have hv : v.rebindPending = false := hstays.rebindPending.trans hpending
      simp only [hv, Bool.false_eq_true, if_false]
  refine hcounted (if g.cancelledListener.isSome ∧ g.cancelledListener = g.listenFd then g
    else { g with closedListenFdAtCancel := g.closedListenFdAtCancel + 1 }) ?_
  split <;> exact h

/-- **A handler that does not bind** is over before anybody asks what a
bind comes to. -/
theorem step_input_eq {handler : Handler} (h : g.binds host handler = false)
    (bind bind' : BindOutcome) :
    g.step host (handler.input bind) = g.step host (handler.input bind') := by
  cases handler with
  | acceptReady id results =>
    simp only [Handler.input, GuardState.step, GuardState.onAcceptReady,
      checkSocketPath_bind h bind bind']
  | guardTick => simp only [Handler.input, GuardState.step, checkSocketPath_bind h bind bind']
  | cancelHandler id =>
    have hpurpose : g.stopping = true ∨ g.rebindPending = false := by
      cases hstopping : g.stopping with
      | true => exact .inl rfl
      | false => exact .inr (by simpa [GuardState.binds, hstopping] using h)
    have hsame : g.cancelHandler host id bind = g.cancelHandler host id bind' := by
      exact congrArg (fun s : GuardState => { s with acceptTeardown := s.acceptTeardown - 1 })
        (onAcceptSourceCancelled_bind (g := { g with sources := update g.sources id none })
          hpurpose bind bind')
    simp only [Handler.input, GuardState.step, hsame]

end Handlers

variable {P : Type*} [DecidableEq P] {host : Host} {s t : ServersState P}

namespace ServersState

/-- What a step of `p` leaves alone of the others. -/
structure Only (p : P) (s t : ServersState P) : Prop where
  listener : ∀ q, q ≠ p → t.listener q = s.listener q
  calls : ∀ q, q ≠ p → t.calls q = s.calls q

omit [DecidableEq P] in
theorem Only.refl (p : P) (s : ServersState P) : Only p s s := ⟨fun _ _ => rfl, fun _ _ => rfl⟩

omit [DecidableEq P] in
theorem Only.trans {p : P} {u : ServersState P} (h : Only p s t) (h' : Only p t u) : Only p s u where
  listener q hq := (h'.listener q hq).trans (h.listener q hq)
  calls q hq := (h'.calls q hq).trans (h.calls q hq)

theorem only_goto (s : ServersState P) (p : P) (c : Calls) : Only p s (s.goto p c) :=
  ⟨fun _ _ => rfl, fun _ hq => update_of_ne hq _ _⟩

/-- A call that changes the path. -/
theorem only_path_goto (s : ServersState P) (p : P) (path : Option (SocketFile P)) (c : Calls) :
    Only p s ({ s with path := path }.goto p c) :=
  ⟨fun _ _ => rfl, fun _ hq => update_of_ne hq _ _⟩

theorem only_setListener (s : ServersState P) (p : P) (g : Option GuardState) :
    Only p s (s.setListener p g) :=
  ⟨fun _ hq => update_of_ne hq _ _, fun _ _ => rfl⟩

@[simp] theorem calls_goto (s : ServersState P) (p : P) (c : Calls) : (s.goto p c).calls p = c :=
  update_self _ _ _

@[simp] theorem listener_setListener (s : ServersState P) (p : P) (g : Option GuardState) :
    (s.setListener p g).listener p = g := update_self _ _ _

omit [DecidableEq P] in
theorem listenerNow_eq_some {p : P} {g : GuardState} : s.listenerNow p = some g ↔
    ∃ g₀, s.listener p = some g₀ ∧ { g₀ with path := s.path.map SocketFile.identity } = g :=
  Option.map_eq_some_iff

theorem stepListener_eq_some {p : P} {i : GuardInput} : s.stepListener host p i = some t ↔
    ∃ g g', s.listenerNow p = some g ∧ g.step host i = some g' ∧ s.setListener p (some g') = t := by
  simp only [stepListener, Option.bind_eq_some_iff, Option.map_eq_some_iff]
  exact ⟨fun ⟨g, hg, g', h⟩ => ⟨g, g', hg, h⟩, fun ⟨g, g', hg, h⟩ => ⟨g, hg, g', h⟩⟩

/-- **What a bind comes to**: `create` fails or there is a listener, and a
handler runs to its end. -/
theorem bound_cases {p : P} {handler : Option Handler} {bind : BindOutcome}
    (h : s.bound host p handler bind = some t) :
    (handler = none ∧ ∃ fd identity, bind = .bound fd identity ∧
        t = (s.setListener p (some (.created fd identity))).goto p .none) ∨
      (handler = none ∧ t = s.goto p .failed) ∨
      ∃ h' g g', handler = some h' ∧ s.listenerNow p = some g ∧
        g.step host (h'.input bind) = some g' ∧ t = (s.setListener p (some g')).goto p .none := by
  cases handler with
  | none =>
    cases bind with
    | bound fd identity => exact .inl ⟨rfl, fd, identity, rfl, (Option.some.inj h).symm⟩
    | failed path => exact .inr (.inl ⟨rfl, (Option.some.inj h).symm⟩)
  | some h' =>
    obtain ⟨u, hu, rfl⟩ := Option.map_eq_some_iff.1 h
    obtain ⟨g, g', hg, hstep, rfl⟩ := stepListener_eq_some.1 hu
    exact .inr (.inr ⟨h', g, g', rfl, hg, hstep, rfl⟩)

theorem only_bound {p : P} {handler : Option Handler} {bind : BindOutcome}
    (h : s.bound host p handler bind = some t) :
    Only p s t ∧ t.lock = s.lock ∧ t.path = s.path := by
  rcases bound_cases h with ⟨-, fd, identity, -, rfl⟩ | ⟨-, rfl⟩ | ⟨h', g, g', -, -, -, rfl⟩
  · exact ⟨(only_setListener s p _).trans (only_goto _ p _), rfl, rfl⟩
  · exact ⟨only_goto s p _, rfl, rfl⟩
  · exact ⟨(only_setListener s p _).trans (only_goto _ p _), rfl, rfl⟩

/-- **A call of the lock's** leaves the servers alone, or a server is gone
with its lock. -/
theorem stepLock_cases {j : LockInput P} (h : s.stepLock j = some t) :
    s.lock.step j = some t.lock ∧ t.path = s.path ∧
      ((∀ p, j ≠ .bind p ∧ j ≠ .release p ∧ j ≠ .exit p) ∧ t.listener = s.listener ∧
          t.calls = s.calls ∨
        ∃ p, (j = .release p ∧ s.Done p ∨ j = .exit p) ∧
          t = { (s.setListener p none).goto p .none with lock := t.lock }) := by
  unfold stepLock at h
  split at h
  · cases h
  · next p =>
    split at h
    · next hdone =>
      obtain ⟨lock, hlock, rfl⟩ := Option.map_eq_some_iff.1 h
      exact ⟨hlock, rfl, .inr ⟨p, .inl ⟨rfl, hdone⟩, rfl⟩⟩
    · cases h
  · next p =>
    obtain ⟨lock, hlock, rfl⟩ := Option.map_eq_some_iff.1 h
    exact ⟨hlock, rfl, .inr ⟨p, .inr rfl, rfl⟩⟩
  · next hbind hrelease hexit =>
    obtain ⟨lock, hlock, rfl⟩ := Option.map_eq_some_iff.1 h
    exact ⟨hlock, rfl, .inl ⟨fun p => ⟨hbind p, hrelease p, hexit p⟩, rfl, rfl⟩⟩

/-- **What a server's own step may do**, the lock apart: nothing to the
other servers, to the path only in the middle of its calls, and nothing at
all unless it is up or holds the lock. -/
structure Own (p : P) (s t : ServersState P) : Prop where
  only : Only p s t
  lock : t.lock = s.lock
  path : t.path = s.path ∨ s.calls p ≠ .none
  up : s.Up p ∨ ∃ f, s.lock.pc p = .holding f

omit [DecidableEq P] in
theorem up_of_listenerNow {p : P} {g : GuardState} (h : s.listenerNow p = some g) : s.Up p := by
  obtain ⟨g₀, hg₀, -⟩ := listenerNow_eq_some.1 h
  exact .inl (by simp [hg₀])

theorem own_stepListener {p : P} {i : GuardInput} (h : s.stepListener host p i = some t) :
    Own p s t := by
  obtain ⟨g, g', hg, -, rfl⟩ := stepListener_eq_some.1 h
  exact ⟨only_setListener s p _, rfl, .inl rfl, .inl (up_of_listenerNow hg)⟩

theorem own_bound {p : P} {handler : Option Handler} {bind : BindOutcome}
    (h : s.bound host p handler bind = some t) (hcalls : s.calls p ≠ .none) : Own p s t :=
  ⟨(only_bound h).1, (only_bound h).2.1, .inl (only_bound h).2.2, .inl (.inr hcalls)⟩

/-- **Every step is the lock's, a server's own, or others'.** -/
theorem step_cases {i : ServersInput P} (h : s.step host i = some t) :
    (∃ j, i = .lock j ∧ s.stepLock j = some t) ∨
      (∃ file, i = .others file ∧
        t = { s with path := file.map fun identity => ⟨identity, none⟩ }) ∨
      ∃ p, i.server = some p ∧ Own p s t := by
  cases i with
  | lock j => exact .inl ⟨j, rfl, h⟩
  | others file => exact .inr (.inl ⟨file, rfl, (Option.some.inj h).symm⟩)
  | start p =>
    refine .inr (.inr ⟨p, rfl, ?_⟩)
    simp only [step] at h
    split at h
    · next f hpc _ _ =>
      obtain rfl := Option.some.inj h
      exact ⟨only_goto s p _, rfl, .inl rfl, .inr ⟨f, hpc⟩⟩
    · cases h
  | handler p h' =>
    refine .inr (.inr ⟨p, rfl, ?_⟩)
    simp only [step] at h
    split at h
    · obtain ⟨g, hg, hmap⟩ := Option.bind_eq_some_iff.1 h
      obtain ⟨g', -, rfl⟩ := Option.map_eq_some_iff.1 hmap
      split
      · exact ⟨only_goto s p _, rfl, .inl rfl, .inl (up_of_listenerNow hg)⟩
      · exact ⟨only_setListener s p _, rfl, .inl rfl, .inl (up_of_listenerNow hg)⟩
    · cases h
  | retryFired p =>
    refine .inr (.inr ⟨p, rfl, ?_⟩)
    simp only [step] at h
    split at h
    · exact own_stepListener h
    · cases h
  | unlink p ok =>
    refine .inr (.inr ⟨p, rfl, ?_⟩)
    simp only [step] at h
    split at h
    · next h' hcalls =>
      have hbusy : s.calls p ≠ .none := by simp [hcalls]
      obtain rfl := Option.some.inj h
      exact ⟨only_path_goto s p _ _, rfl, .inr hbusy, .inl (.inr hbusy)⟩
    · cases h
  | bind p ok fd ino =>
    refine .inr (.inr ⟨p, rfl, ?_⟩)
    simp only [step] at h
    split at h
    · next h' hcalls =>
      have hbusy : s.calls p ≠ .none := by simp [hcalls]
      split at h
      · obtain rfl := Option.some.inj h
        exact ⟨only_path_goto s p _ _, rfl, .inr hbusy, .inl (.inr hbusy)⟩
      · exact own_bound h hbusy
    · cases h
  | record p ok =>
    refine .inr (.inr ⟨p, rfl, ?_⟩)
    simp only [step] at h
    split at h
    · next h' fd hcalls =>
      have hbusy : s.calls p ≠ .none := by simp [hcalls]
      split at h
      · split at h
        · obtain rfl := Option.some.inj h
          exact ⟨only_goto s p _, rfl, .inl rfl, .inl (.inr hbusy)⟩
        · exact own_bound h hbusy
      · exact own_bound h hbusy
    · cases h
  | listen p ok =>
    refine .inr (.inr ⟨p, rfl, ?_⟩)
    simp only [step] at h
    split at h
    · next h' fd identity hcalls =>
      have hbusy : s.calls p ≠ .none := by simp [hcalls]
      split at h
      · exact own_bound h hbusy
      · exact own_bound h hbusy
    · cases h
  | teardown p =>
    refine .inr (.inr ⟨p, rfl, ?_⟩)
    simp only [step] at h
    split at h
    · exact own_stepListener h
    · cases h
  | look p =>
    refine .inr (.inr ⟨p, rfl, ?_⟩)
    simp only [step] at h
    split at h
    · obtain ⟨g, hg, hmap⟩ := Option.bind_eq_some_iff.1 h
      obtain ⟨g', -, rfl⟩ := Option.map_eq_some_iff.1 hmap
      split
      · exact ⟨(only_setListener s p _).trans (only_goto _ p _), rfl, .inl rfl,
          .inl (up_of_listenerNow hg)⟩
      · exact ⟨only_setListener s p _, rfl, .inl rfl, .inl (up_of_listenerNow hg)⟩
    · cases h
  | remove p ok =>
    refine .inr (.inr ⟨p, rfl, ?_⟩)
    simp only [step] at h
    split at h
    · next hcalls =>
      have hbusy : s.calls p ≠ .none := by simp [hcalls]
      obtain ⟨g, hg, hmap⟩ := Option.bind_eq_some_iff.1 h
      obtain ⟨g', -, rfl⟩ := Option.map_eq_some_iff.1 hmap
      have hboth : Only p s ((s.setListener p (some g')).goto p .none) :=
        (only_setListener s p _).trans (only_goto _ p _)
      exact ⟨⟨hboth.listener, hboth.calls⟩, rfl, .inr hbusy, .inl (.inr hbusy)⟩
    · cases h

end ServersState

/-- **Who is up holds the lock.** -/
structure Held (s : ServersState P) : Prop where
  lock : Instance.Kept s.lock
  holding : ∀ p, s.Up p → ∃ f, s.lock.pc p = .holding f

omit [DecidableEq P] in
theorem Down.held (h : Down s) : Held s where
  lock := h.lock.kept
  holding p hp := (hp.elim (· (h.listener p)) (· (h.calls p))).elim

namespace Held

omit [DecidableEq P] in
/-- **One is up.** -/
theorem unique (h : Held s) {p q : P} (hp : s.Up p) (hq : s.Up q) : p = q := by
  obtain ⟨f, hf⟩ := h.holding p hp
  obtain ⟨g, hg⟩ := h.holding q hq
  exact holding_unique h.lock hf hg

omit [DecidableEq P] in
/-- What is up after a step that leaves it alone was up before. -/
theorem up_of_eq {q : P} (hl : t.listener q = s.listener q) (hc : t.calls q = s.calls q) :
    t.Up q ↔ s.Up q := by
  rw [ServersState.Up, ServersState.Up, hl, hc]

theorem stepLock (h : Held s) {j : LockInput P} (hst : s.stepLock j = some t) : Held t := by
  obtain ⟨hlock, -, hservers⟩ := ServersState.stepLock_cases hst
  refine ⟨h.lock.step hlock, fun q hq => ?_⟩
  rcases hservers with ⟨hj, hlistener, hcalls⟩ | ⟨p, hj, ht⟩
  · have hup : s.Up q := (up_of_eq (congrFun hlistener q) (congrFun hcalls q)).1 hq
    obtain ⟨f, hf⟩ := h.holding q hup
    by_cases heq : q = j.contender
    · subst heq
      rcases step_of_holding hlock hf with hbind | hrelease | hexit
      · exact absurd hbind (hj _).1
      · exact absurd hrelease (hj _).2.1
      · exact absurd hexit (hj _).2.2
    · exact ⟨f, (pc_step_of_ne hlock heq).trans hf⟩
  · have hcontender : j.contender = p := by rcases hj with ⟨rfl, -⟩ | rfl <;> rfl
    by_cases heq : q = p
    · subst heq
      rw [ht] at hq
      exact absurd hq (by simp [ServersState.Up, ServersState.goto, ServersState.setListener])
    · have hup : s.Up q := by
        rw [ht] at hq
        refine (up_of_eq ?_ ?_).1 hq
        · exact (ServersState.only_setListener s p none).listener q heq
        · exact (ServersState.only_goto (s.setListener p none) p .none).calls q heq
      obtain ⟨f, hf⟩ := h.holding q hup
      exact ⟨f, (pc_step_of_ne hlock (by rwa [hcontender])).trans hf⟩

/-- **Every step keeps it.** -/
theorem step (h : Held s) {i : ServersInput P} (hst : s.step host i = some t) : Held t := by
  rcases ServersState.step_cases hst with ⟨j, rfl, hj⟩ | ⟨file, rfl, rfl⟩ | ⟨p, -, hown⟩
  · exact h.stepLock hj
  · exact ⟨h.lock, h.holding⟩
  · refine ⟨hown.lock ▸ h.lock, fun q hq => ?_⟩
    rw [hown.lock]
    by_cases heq : q = p
    · subst heq
      exact hown.up.elim (h.holding q) id
    · exact h.holding q ((up_of_eq (hown.only.listener q heq) (hown.only.calls q heq)).1 hq)

end Held

theorem held_reachable (h : (servers P host).Reachable s) : Held s := by
  refine h.invariant (I := Held) ?_ ?_
  · exact fun _ => Down.held
  · exact fun _ _ _ hs hst => hs.step hst

/-- **One socket.** In every order of the system calls of any number of
servers, with deaths at any moment and others meddling with the path: one
server is up at a time, and while it is, nobody but it and those others
touches the socket path. -/
theorem one_socket (h : (servers P host).Reachable s) :
    (∀ p q, s.Up p → s.Up q → p = q) ∧
      ∀ p i t, s.Up p → s.step host i = some t → t.path ≠ s.path →
        i.server = some p ∨ ∃ file, i = .others file := by
  have hheld := held_reachable h
  refine ⟨fun p q hp hq => hheld.unique hp hq, fun p i t hp hst hpath => ?_⟩
  rcases ServersState.step_cases hst with ⟨j, rfl, hj⟩ | ⟨file, rfl, -⟩ | ⟨q, hq, hown⟩
  · exact absurd (ServersState.stepLock_cases hj).2.1 hpath
  · exact .inr ⟨file, rfl⟩
  · have hbusy : s.calls q ≠ .none := hown.path.resolve_left hpath
    obtain rfl : q = p := hheld.unique (.inr hbusy) hp
    exact .inl hq

/-- A second server is turned away; the first stops, and lets go of the lock
once its file is gone; then the second binds. -/
def handover : List (ServersInput ℕ) :=
  [.lock (.acquire 0), .lock (.openCreate 0 true 5), .lock (.fstat 0 true), .lock (.flock 0 true),
   .lock (.lstat 0 true), .start 0, .unlink 0 true, .bind 0 true 3 7, .record 0 true,
   .listen 0 true, .lock (.acquire 1), .lock (.openCreate 1 true 0), .lock (.fstat 1 true),
   .lock (.flock 1 true), .lock (.close 1), .handler 0 .guardTick, .teardown 0,
   .handler 0 (.cancelHandler 0), .look 0, .remove 0 true, .lock (.release 0),
   .lock (.lstat 0 true), .lock (.unlink 0 true), .lock (.close 0), .lock (.acquire 1),
   .lock (.openCreate 1 true 5), .lock (.fstat 1 true), .lock (.flock 1 true),
   .lock (.lstat 1 true), .start 1, .unlink 1 true, .bind 1 true 3 7, .record 1 true]

theorem one_socket_handover :
    ∃ s, (servers ℕ .socketTransport).run (.down ℕ none) handover = some s ∧
      s.calls 1 = .listening none 3 7 ∧ s.path = some ⟨7, some 1⟩ ∧ (∀ p, s.Up p → p = 1) ∧
      ∀ i t, s.step .socketTransport i = some t → t.path ≠ s.path →
        i.server = some 1 ∨ ∃ file, i = .others file := by
  have hreach : ∀ s, (servers ℕ .socketTransport).run (.down ℕ none) handover = some s →
      (servers ℕ .socketTransport).Reachable s :=
    fun s hrun => ⟨_, _, ServersState.down_down ℕ none, hrun⟩
  have hup : ∀ s : ServersState ℕ, s.calls 1 = .listening none 3 7 → s.Up 1 :=
    fun s hcalls => .inr (by simp [hcalls])
  refine ⟨_, rfl, rfl, rfl, fun p hp => ?_, fun i t => ?_⟩
  · exact (one_socket (hreach _ rfl)).1 p 1 hp (hup _ rfl)
  · exact (one_socket (hreach _ rfl)).2 1 i t (hup _ rfl)

end Listener

end LibreDarwin
