import LibreDarwin.Transport.Integrity

/-!
# The connection table

What holds of the table in every state: the cap, one entry under each id
and no id twice, and of each connection that its sources, its timer and
its queue say the same thing (`WellKept`). The last is kept by
`enqueueSend` and `flushWrites` on their own, so every operation that ends
in one of them restores it on every exit.
-/

namespace LibreDarwin

namespace Transport

open Wire
open Std (ExtTreeMap)

variable {Req : Type*} {W : Wire Req}

namespace Connection

/-- **A connection whose parts agree.** -/
structure WellKept (conn : Connection) : Prop where
  write : conn.writeSource = true ↔ conn.outQueue ≠ []
  bytes : conn.queuedBytes ≤ kMaxQueuedBytesPerConnection
  frames : conn.outQueue.length ≤ kMaxQueuedFrames
  timer : conn.firstFrameTimer = !conn.sawFirstFrame
  read : conn.readSource = !conn.closeWhenDrained
  leaving : conn.closeWhenDrained = true → conn.outQueue ≠ []

variable {conn conn' : Connection} {maxFds : ℕ} {kernel : List IoResult}

/-- **A flush within the bounds leaves a connection well kept**, whatever
its write source was before. -/
theorem WellKept.of_flushWrites (hbound : ¬ conn.OverBound)
    (htimer : conn.firstFrameTimer = !conn.sawFirstFrame)
    (hread : conn.readSource = !conn.closeWhenDrained)
    (h : (conn.flushWrites maxFds kernel).conn = .ok conn') : conn'.WellKept := by
  obtain ⟨hcore, hwrite, hleaving, hq, hb⟩ := flushWrites_ok h
  obtain ⟨hbytes, hframes, -⟩ := flushQueue_shape maxFds conn.outQueue conn.queuedBytes kernel
  rw [← hb] at hbytes
  rw [← hq] at hframes
  simp only [OverBound, not_or, not_lt] at hbound
  have htimer' : conn'.firstFrameTimer = conn.firstFrameTimer := congrArg (·.firstFrameTimer) hcore
  have hsaw : conn'.sawFirstFrame = conn.sawFirstFrame := congrArg (·.sawFirstFrame) hcore
  have hread' : conn'.readSource = conn.readSource := congrArg (·.readSource) hcore
  have hclose : conn'.closeWhenDrained = conn.closeWhenDrained :=
    congrArg (·.closeWhenDrained) hcore
  exact {
    write := hwrite
    bytes := by omega
    frames := by omega
    timer := by rw [htimer', hsaw, htimer]
    read := by rw [hread', hclose, hread]
    leaving := by rw [hclose]; exact hleaving }

/-- So does a send: it checks the bounds first. -/
theorem WellKept.of_enqueueSend {framed : Bytes} {fds : List Fd}
    (htimer : conn.firstFrameTimer = !conn.sawFirstFrame)
    (hread : conn.readSource = !conn.closeWhenDrained)
    (h : (conn.enqueueSend maxFds framed fds kernel).conn = .ok conn') : conn'.WellKept := by
  obtain ⟨hbound, h⟩ := enqueueSend_ok h
  exact .of_flushWrites hbound htimer hread h

theorem WellKept.flushWrites (hconn : conn.WellKept)
    (h : (conn.flushWrites maxFds kernel).conn = .ok conn') : conn'.WellKept := by
  refine .of_flushWrites ?_ hconn.timer hconn.read h
  have := hconn.bytes
  have := hconn.frames
  simp only [OverBound, not_or, not_lt]
  omega

end Connection

namespace Slot

variable {σ : Slot Req} {handlers : List HandlerId} {kernel : List IoResult}

/-- **A connection's part of the table invariant.** -/
structure WellKept (σ : Slot Req) : Prop where
  conn : ∀ conn, σ.conn = some conn →
    conn.WellKept ∧ (conn.sawFirstFrame = true ↔ deliveredIn σ.seen ≠ [])
  once : connectsIn σ.seen ≤ 1

/-- Entries that are neither deliveries nor accepts. -/
def Quiet (obs : List (Obs Req)) : Prop := deliveredIn obs = [] ∧ connectsIn obs = 0

theorem WellKept.log (hσ : σ.WellKept) {obs : List (Obs Req)} (h : Quiet obs) :
    (σ.log obs).WellKept where
  conn := by simpa [h.1] using hσ.conn
  once := by simpa [h.2] using hσ.once

/-- A connection that is gone asks nothing more. -/
theorem WellKept.gone (hσ : σ.WellKept) (frames : List WireFrame) :
    ({ σ with conn := none, inbound := frames } : Slot Req).WellKept where
  conn := by rintro conn ⟨⟩
  once := hσ.once

/-- **A send path's outcome**: what it leaves open must be well kept, and
the connection it was given need not be. -/
theorem WellKept.of_settle (honce : connectsIn σ.seen ≤ 1) {conn : Connection}
    (hconn : σ.conn = some conn) (hsaw : conn.sawFirstFrame = true ↔ deliveredIn σ.seen ≠ [])
    {out : Outcome}
    (hout : ∀ conn', out.conn = .ok conn' →
      conn'.WellKept ∧ conn'.sawFirstFrame = conn.sawFirstFrame) :
    (σ.settle handlers out).WellKept := by
  unfold Slot.settle
  cases ho : out.conn with
  | ok conn' =>
    refine ⟨fun conn₁ h₁ => ?_, by simpa using honce⟩
    obtain rfl := Option.some.inj h₁
    obtain ⟨hkept, hsame⟩ := hout conn' ho
    exact ⟨hkept, by simpa [hsame] using hsaw⟩
  | error why =>
    dsimp only
    unfold close
    rw [conn_log, hconn]
    exact ⟨by rintro conn' ⟨⟩, by simpa using honce⟩

theorem WellKept.of_send (honce : connectsIn σ.seen ≤ 1) {conn : Connection}
    (hconn : σ.conn = some conn) (hsaw : conn.sawFirstFrame = true ↔ deliveredIn σ.seen ≠ [])
    (htimer : conn.firstFrameTimer = !conn.sawFirstFrame)
    (hread : conn.readSource = !conn.closeWhenDrained) (m : Message) (fds : List Fd) :
    ((σ.log [.enqueued m (frameOf W m fds)]).settle handlers
      (conn.enqueueSend W.kMaxFrameFds (frameOf W m fds).data fds kernel)).WellKept := by
  have hdelivered : deliveredIn (σ.log [.enqueued m (frameOf W m fds)]).seen =
      deliveredIn σ.seen := by simp
  have hconnects : connectsIn (σ.log [.enqueued m (frameOf W m fds)]).seen =
      connectsIn σ.seen := by simp
  refine WellKept.of_settle (σ := σ.log _) (hconnects ▸ honce) hconn (hdelivered ▸ hsaw)
    fun conn' h => ⟨.of_enqueueSend htimer hread h, ?_⟩
  exact congrArg (·.sawFirstFrame) (core_of_enqueueSend h)

/-- **Every move restores the invariant.** -/
theorem WellKept.move {c : ConnId} {m : Move Req} (hσ : σ.WellKept) (hlegal : m.Legal W c σ) :
    (σ.move W handlers kernel m).WellKept := by
  have heffect := effect_move W σ handlers kernel m
  generalize σ.move W handlers kernel m = τ at heffect
  cases heffect with
  | same => exact hσ
  | accepted id =>
    obtain ⟨-, rfl⟩ := hlegal
    refine ⟨fun conn hconn => ?_, by simp [connectsIn, blank]⟩
    obtain rfl := Option.some.inj hconn
    refine ⟨⟨?_, ?_, ?_, rfl, rfl, ?_⟩, ?_⟩
    all_goals simp [Connection.accepted, deliveredIn, blank]
  | sent hconn m fds =>
    obtain ⟨hkept, hsaw⟩ := hσ.conn _ hconn
    exact .of_send hσ.once hconn hsaw hkept.timer hkept.read m fds
  | broadcast hconn e kind htakes =>
    obtain ⟨hkept, hsaw⟩ := hσ.conn _ hconn
    exact .of_send hσ.once hconn hsaw hkept.timer hkept.read (.event e) []
  | sentLast hconn m =>
    -- a closing connection is well kept only once its last frame is queued
    rename_i conn
    obtain ⟨hkept, hsaw⟩ := hσ.conn conn hconn
    have hclosing : ({ σ with conn := some conn.closing }.log [.lastFrame]).conn =
        some conn.closing := rfl
    have hdelivered : deliveredIn (σ.seen ++ [.lastFrame]) = deliveredIn σ.seen := by simp
    have hconnects : connectsIn (σ.seen ++ [.lastFrame]) = connectsIn σ.seen := by simp
    exact .of_send (hconnects ▸ hσ.once) hclosing (hdelivered ▸ hsaw) hkept.timer rfl m []
  | wants hconn b =>
    obtain ⟨⟨hwrite, hbytes, hframes, htimer, hread, hleaving⟩, hsaw⟩ := hσ.conn _ hconn
    refine ⟨fun conn' hconn' => ?_, hσ.once⟩
    obtain rfl := Option.some.inj hconn'
    exact ⟨⟨hwrite, hbytes, hframes, htimer, hread, hleaving⟩, hsaw⟩
  | flushed hconn hwrite =>
    obtain ⟨hkept, hsaw⟩ := hσ.conn _ hconn
    refine .of_settle hσ.once hconn hsaw fun conn' h => ⟨hkept.flushWrites h, ?_⟩
    exact congrArg (·.sawFirstFrame) (Connection.flushWrites_ok h).1
  | read hconn hread frames =>
    obtain ⟨⟨hwrite, hbytes, hframes, htimer, hread', hleaving⟩, hsaw⟩ := hσ.conn _ hconn
    refine ⟨fun conn' hconn' => ?_, ?_⟩
    · obtain rfl := Option.some.inj hconn'
      cases frames with
      | nil => exact ⟨⟨hwrite, hbytes, hframes, htimer, hread', hleaving⟩, by simpa using hsaw⟩
      | cons frame frames =>
        refine ⟨⟨hwrite, hbytes, hframes, rfl, hread', hleaving⟩, ?_⟩
        rw [seen_log, deliveredIn_append, deliveredIn_delivered]
        simp [Connection.gotFrame]
    · simpa using hσ.once
  | served hconn hopen caller frame req heard =>
    exact WellKept.log (σ := { σ with inbound := σ.inbound.tail }) ⟨hσ.conn, hσ.once⟩
      ⟨by simp, by simp⟩
  | stopped => exact ⟨hσ.conn, hσ.once⟩
  | skipped hclosing caller frame req heard => exact ⟨hσ.conn, hσ.once⟩
  | gone hconn why => exact ⟨hσ.conn, hσ.once⟩
  | closed hconn why => exact (hσ.gone []).log ⟨by simp, by simp⟩
  | timedOut hconn hsaw => exact (hσ.gone _).log ⟨by simp, by simp⟩

end Slot

theorem reachable_wellKept {s : State Req} (h : (transport W).Reachable s) (c : ConnId) :
    (s.slot c).WellKept := by
  refine reachable_slot (P := fun _ σ => σ.WellKept) (fun c => ⟨?_, Nat.zero_le _⟩)
    (fun c σ m handlers kernel hσ hm => hσ.move hm) h c
  rintro conn ⟨⟩

/-! The cap. A step other than an accept only loses connections. -/

/-- A map whose keys are another's has no more entries. -/
theorem size_le_of_keys {β : Type*} {m n : ExtTreeMap ConnId β} (h : ∀ k, k ∈ m → k ∈ n) :
    m.size ≤ n.size := by
  rw [← ExtTreeMap.length_keys, ← ExtTreeMap.length_keys]
  have hnodup : m.keys.Nodup :=
    ExtTreeMap.distinct_keys.imp fun {a b} hab heq => by subst heq; simp at hab
  refine hnodup.length_le_of_subset fun k hk => ?_
  rw [ExtTreeMap.mem_keys] at hk ⊢
  exact h k hk

theorem mem_connections_step {s t : State Req} {i : Input} (h : s.step W i = some t) {c : ConnId}
    (hc : c ∈ t.connections) : c ∈ s.connections ∨ s.moveOn W c i.event = .accept c := by
  rw [ExtTreeMap.mem_iff_isSome_getElem?, Option.isSome_iff_exists] at hc
  obtain ⟨conn', hconn'⟩ := hc
  obtain ⟨id, hm, -⟩ | ⟨conn, hconn, -, -⟩ := (effect_step h c).owner hconn'
  · right
    have horigin := origin_moveOn (W := W) s c i.event
    rw [hm] at horigin ⊢
    generalize i.event = event at horigin
    cases horigin
    rfl
  · left
    rw [ExtTreeMap.mem_iff_isSome_getElem?, Option.isSome_iff_exists]
    exact ⟨conn, hconn⟩

theorem size_step {s t : State Req} {i : Input} (hs : s.connections.size ≤ kMaxConnections)
    (h : s.step W i = some t) : t.connections.size ≤ kMaxConnections := by
  by_cases haccept : s.moveOn W s.nextConnId i.event = .accept s.nextConnId
  · have horigin := origin_moveOn (W := W) s s.nextConnId i.event
    rw [haccept] at horigin
    obtain ⟨event, kernel⟩ := i
    dsimp only at horigin
    cases horigin with
    | accept hnext hsize =>
      obtain ⟨-, rfl⟩ := step_spec h
      have hcap : ¬ kMaxConnections ≤ s.connections.size := by omega
      simp only [State.acceptOne, hcap, if_false, if_true, State.log]
      exact Nat.le_trans ExtTreeMap.size_insert_le hsize
  · refine Nat.le_trans (size_le_of_keys fun c hc => ?_) hs
    obtain hc | hm := mem_connections_step h hc
    · exact hc
    · have horigin := origin_moveOn (W := W) s c i.event
      rw [hm] at horigin
      generalize hevent : i.event = event at horigin
      cases horigin with
      | accept hnext hsize =>
        subst hnext
        exact absurd hm haccept

theorem reachable_size {s : State Req} (h : (transport W).Reachable s) :
    s.connections.size ≤ kMaxConnections := by
  refine h.invariant (I := fun s => s.connections.size ≤ kMaxConnections) ?_ ?_
  · intro s hs
    simp [hs.connections]
  · intro s i t hs hst
    exact size_step hs hst

/-- Tokens are as distinct as the ids they are made of. -/
theorem callerToken_injective : Function.Injective callerToken := by
  intro a b h
  have : a.repr = b.repr := by
    simpa [callerToken, String.append_right_inj] using h
  exact Nat.repr_injective this

/-- **The connection table.** In every reachable state there are at most 32
connections; each is stored under its own id with its own token, and an id
is accepted at most once, so is never reused; the write source is armed
exactly for a queue that is not empty; the queue is within its bounds; the
first-frame timer runs exactly until a complete frame was delivered; and
the read source is missing exactly from a connection on its way out, which
has a frame queued still. -/
theorem table_invariant {s : State Req} (h : (transport W).Reachable s) :
    s.connections.size ≤ 32 ∧
      (∀ c, connectsIn (s.seen c) ≤ 1) ∧
      ∀ c conn, s.connections[c]? = some conn →
        conn.id = c ∧ conn.caller = "conn:" ++ c.repr ∧ c < s.nextConnId ∧
        (conn.writeSource = true ↔ conn.outQueue ≠ []) ∧
        conn.queuedBytes ≤ 4 * 1024 * 1024 ∧ conn.outQueue.length ≤ 4096 ∧
        (conn.firstFrameTimer = true ↔ deliveredIn (s.seen c) = []) ∧
        (conn.readSource = false ↔ conn.closeWhenDrained = true) ∧
        (conn.closeWhenDrained = true → conn.outQueue ≠ []) := by
  have horderly := reachable_orderly h
  refine ⟨reachable_size h, fun c => (reachable_wellKept h c).once, fun c conn hconn => ?_⟩
  obtain ⟨hid, hcaller⟩ := horderly.owner c conn hconn
  obtain ⟨⟨hwrite, hbytes, hframes, htimer, hread, hleaving⟩, hsaw⟩ :=
    (reachable_wellKept h c).conn conn hconn
  have hused : c < s.nextConnId := by
    by_contra hge
    have hblank := horderly.unused c (Nat.le_of_not_lt hge)
    have : (s.slot c).conn = none := by rw [hblank]; rfl
    rw [State.slot_conn, hconn] at this
    cases this
  refine ⟨hid, hcaller, hused, hwrite, hbytes, hframes, ?_, ?_, hleaving⟩
  · rw [htimer, Bool.not_eq_true', ← Bool.not_eq_true, hsaw, not_not]
    rfl
  · rw [hread, Bool.not_eq_false']

/-- A write that blocked: the frame is still queued and the write source
armed. -/
theorem table_invariant_blocked :
    ∃ s, (transport plainWire).run (.start []) (cutShort.take 2) = some s ∧
      s.connections.size ≤ 32 ∧
      ∃ conn, s.connections[1]? = some conn ∧ conn.writeSource = true ∧
        (conn.writeSource = true ↔ conn.outQueue ≠ []) := by
  have hreach : ∀ s, (transport plainWire).run (.start []) (cutShort.take 2) = some s →
      (transport plainWire).Reachable s := fun s hrun => ⟨_, _, State.started_start [], hrun⟩
  refine ⟨_, rfl, (table_invariant (hreach _ rfl)).1, _, rfl, rfl, ?_⟩
  exact ((table_invariant (hreach _ rfl)).2.2 1 _ rfl).2.2.2.1

end Transport

end LibreDarwin
