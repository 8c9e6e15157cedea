import LibreDarwin.Transport.Trace
import LibreDarwin.Transport.Slot

/-!
# From moves to runs

A step moves every slot (`slot_step`), but not by any move: a connection
is accepted once and fresh, and a frame is served from the front of the
frames pumped. `Legal` says which moves occur, `legal` that these are the
only ones, and `reachable_slot` is the induction every theorem about one
connection goes through: what the legal moves keep, every run keeps.
-/

namespace LibreDarwin

namespace Transport

open Wire Std Function

variable {Req : Type*} {W : Wire Req}

/-- Nothing is known of the connection yet. -/
def Slot.blank : Slot Req := ⟨none, [], []⟩

/-- **The moves that occur.** -/
def Move.Legal (W : Wire Req) (c : ConnId) (σ : Slot Req) : Move Req → Prop
  | .accept id => id = c ∧ σ = .blank
  | .read _ => σ.inbound = []
  | .stop => σ.inbound = []
  | .stopAndClose why => why = .pumpEnded ∨ why = .malformed
  | .serve caller frame req _ =>
    σ.inbound.head? = some frame ∧ caller = callerToken c ∧ W.parseRequest frame.body = some req
  | _ => True

namespace Slot

variable {σ : Slot Req} {handlers : List HandlerId} {kernel : List IoResult}

@[simp] theorem conn_log (obs : List (Obs Req)) : (σ.log obs).conn = σ.conn := rfl

@[simp] theorem inbound_log (obs : List (Obs Req)) : (σ.log obs).inbound = σ.inbound := rfl

@[simp] theorem seen_log (obs : List (Obs Req)) : (σ.log obs).seen = σ.seen ++ obs := rfl

@[simp] theorem conn_close (why : CloseReason) : (σ.close handlers why).conn = none := by
  unfold close
  cases h : σ.conn with
  | none => exact h
  | some conn => rfl

@[simp] theorem inbound_close (why : CloseReason) :
    (σ.close handlers why).inbound = σ.inbound := by
  unfold close; split <;> rfl

@[simp] theorem inbound_settle (out : Outcome) :
    (σ.settle handlers out).inbound = σ.inbound := by
  unfold settle
  cases out.conn with
  | ok conn => rfl
  | error why => exact inbound_close why

@[simp] theorem inbound_send (m : Message) (fds : List Fd) :
    (σ.send W handlers kernel m fds).inbound = σ.inbound := by
  unfold send
  split
  · rfl
  · rw [inbound_settle, inbound_log]

/-- The connection a send path leaves is the one it returned. -/
theorem conn_settle {out : Outcome} {conn' : Connection} :
    (σ.settle handlers out).conn = some conn' ↔ out.conn = .ok conn' := by
  unfold settle
  cases out.conn with
  | ok conn => simp
  | error why => simp

/-- A send path that keeps the connection. -/
theorem settle_ok {out : Outcome} {conn' : Connection} (h : out.conn = .ok conn') :
    σ.settle handlers out = ⟨some conn', σ.inbound, σ.seen ++ out.io.map .io⟩ := by
  unfold settle
  rw [h]
  rfl

/-- A send path that closes it. -/
theorem settle_error {out : Outcome} {why : CloseReason} {conn : Connection}
    (hconn : σ.conn = some conn) (h : out.conn = .error why) :
    σ.settle handlers out =
      ⟨none, σ.inbound, σ.seen ++ out.io.map .io ++ farewell why handlers conn.caller⟩ := by
  unfold settle
  rw [h]
  dsimp only
  unfold close
  rw [conn_log, hconn]
  rfl

/-- A send path adds to a trace what the kernel did, and a farewell where
it closes. -/
theorem seen_settle (σ : Slot Req) (handlers : List HandlerId) (out : Outcome) :
    ∃ rest : List (Obs Req), (rest = [] ∨ ∃ why caller, rest = farewell why handlers caller) ∧
      (σ.settle handlers out).seen = σ.seen ++ out.io.map .io ++ rest := by
  rcases ho : out.conn with why | conn'
  · cases hc : σ.conn with
    | none =>
      refine ⟨[], .inl rfl, ?_⟩
      have hgone : (σ.log (out.io.map .io)).close handlers why = σ.log (out.io.map .io) := by
        unfold close
        rw [conn_log, hc]
      unfold settle
      rw [ho]
      dsimp only
      rw [hgone, seen_log, List.append_nil]
    | some conn =>
      exact ⟨_, .inr ⟨why, conn.caller, rfl⟩, by rw [settle_error hc ho]⟩
  · exact ⟨[], .inl rfl, by rw [settle_ok ho, List.append_nil]⟩

/-- **What a move can do to a slot**, with what it found there. -/
inductive Effect (W : Wire Req) (handlers : List HandlerId) (kernel : List IoResult)
    (σ : Slot Req) : Move Req → Slot Req → Prop
  | same {m : Move Req} : Effect W handlers kernel σ m σ
  | accepted (id : ConnId) :
      Effect W handlers kernel σ (.accept id)
        ({ σ with conn := some (.accepted id) }.log [.connected])
  | sent {conn : Connection} (h : σ.conn = some conn) (m : Message) (fds : List Fd) :
      Effect W handlers kernel σ (.send m fds)
        ((σ.log [.enqueued m (frameOf W m fds)]).settle handlers
          (conn.enqueueSend W.kMaxFrameFds (frameOf W m fds).data fds kernel))
  | broadcast {conn : Connection} (h : σ.conn = some conn) (e : Event) (kind : EventKind)
      (htakes : conn.Takes kind) :
      Effect W handlers kernel σ (.broadcast e kind)
        ((σ.log [.enqueued (.event e) (frameOf W (.event e) [])]).settle handlers
          (conn.enqueueSend W.kMaxFrameFds (frameOf W (.event e) []).data [] kernel))
  | sentLast {conn : Connection} (h : σ.conn = some conn) (m : Message) :
      Effect W handlers kernel σ (.sendThenClose m)
        ((({ σ with conn := some conn.closing }.log [.lastFrame]).log
            [.enqueued m (frameOf W m [])]).settle handlers
          (conn.closing.enqueueSend W.kMaxFrameFds (frameOf W m []).data [] kernel))
  | wants {conn : Connection} (h : σ.conn = some conn) (b : Bool) :
      Effect W handlers kernel σ (.wants b)
        { σ with conn := some { conn with wantsPresenceEvents := b } }
  | flushed {conn : Connection} (h : σ.conn = some conn) (hwrite : conn.writeSource = true) :
      Effect W handlers kernel σ .writeReady
        (σ.settle handlers (conn.flushWrites W.kMaxFrameFds kernel))
  | read {conn : Connection} (h : σ.conn = some conn) (hread : conn.readSource = true)
      (frames : List WireFrame) :
      Effect W handlers kernel σ (.read frames)
        ({ σ with conn := some (if frames.isEmpty then conn else conn.gotFrame)
                  inbound := frames }.log (frames.map .delivered))
  | served {conn : Connection} (h : σ.conn = some conn) (hopen : conn.closeWhenDrained = false)
      (caller : CallerToken) (frame : WireFrame) (req : Req) (heard : Bool) :
      Effect W handlers kernel σ (.serve caller frame req heard)
        ({ σ with inbound := σ.inbound.tail }.log
          (if heard then [.request caller req frame.fds] else []))
  | stopped : Effect W handlers kernel σ .stop σ.stop
  | skipped (h : ∀ conn, σ.conn = some conn → conn.closeWhenDrained = true)
      (caller : CallerToken) (frame : WireFrame) (req : Req) (heard : Bool) :
      Effect W handlers kernel σ (.serve caller frame req heard) σ.stop
  | gone (h : σ.conn = none) (why : CloseReason) :
      Effect W handlers kernel σ (.stopAndClose why) σ.stop
  | closed {conn : Connection} (h : σ.conn = some conn) (why : CloseReason) :
      Effect W handlers kernel σ (.stopAndClose why) ({ σ with conn := none, inbound := [] }.log
        (farewell why handlers conn.caller))
  | timedOut {conn : Connection} (h : σ.conn = some conn) (hsaw : conn.sawFirstFrame = false) :
      Effect W handlers kernel σ .timeout ({ σ with conn := none }.log
        (farewell .firstFrameTimeout handlers conn.caller))

/-- **Every move has one of these effects.** -/
theorem effect_move (W : Wire Req) (σ : Slot Req) (handlers : List HandlerId)
    (kernel : List IoResult) (m : Move Req) :
    σ.Effect W handlers kernel m (σ.move W handlers kernel m) := by
  cases hc : σ.conn with
  | none =>
    cases m with
    | accept id => exact .accepted id
    | serve caller frame req heard =>
      have hskip : ∀ conn, σ.conn = some conn → conn.closeWhenDrained = true := by simp [hc]
      simpa [move, serve, hc] using Effect.skipped hskip caller frame req heard
    | stop => exact .stopped
    | stopAndClose why =>
      have : σ.stop.close handlers why = σ.stop := by simp [close, stop, hc]
      rw [move, this]
      exact .gone hc why
    | wants b =>
      have : σ.wants b = σ := by
        obtain ⟨conn, inbound, seen⟩ := σ
        cases hc
        rfl
      rw [move, this]
      exact .same
    | _ =>
      simpa [move, send, sendThenClose, broadcast, Takes, writeReady, read, timeout, hc] using
        Effect.same
  | some conn =>
    cases m with
    | rest => exact .same
    | accept id => exact .accepted id
    | send msg fds => simpa [move, send, hc] using Effect.sent hc msg fds
    | sendThenClose msg => simpa [move, sendThenClose, send, hc] using Effect.sentLast hc msg
    | wants b => simpa [move, Slot.wants, hc] using Effect.wants hc b
    | broadcast e kind =>
      by_cases ht : conn.Takes kind
      · simpa [move, Slot.broadcast, Takes, hc, ht, send] using Effect.broadcast hc e kind ht
      · simpa [move, Slot.broadcast, Takes, hc, ht] using Effect.same
    | writeReady =>
      by_cases hw : conn.writeSource = true
      · simpa [move, writeReady, hc, hw] using Effect.flushed hc hw
      · simpa [move, writeReady, hc, hw] using Effect.same
    | read frames =>
      by_cases hr : conn.readSource = true
      · simpa [move, Slot.read, hc, hr] using Effect.read hc hr frames
      · simpa [move, Slot.read, hc, hr] using Effect.same
    | serve caller frame req heard =>
      cases ho : conn.closeWhenDrained with
      | true =>
        have hskip : ∀ conn', σ.conn = some conn' → conn'.closeWhenDrained = true := by
          simp [hc, ho]
        simpa [move, serve, hc, ho] using Effect.skipped hskip caller frame req heard
      | false => simpa [move, serve, hc, ho] using Effect.served hc ho caller frame req heard
    | stop => exact .stopped
    | stopAndClose why => simpa [move, close, stop, hc] using Effect.closed hc why
    | timeout =>
      by_cases ht : conn.firstFrameTimer = true ∧ conn.sawFirstFrame = false
      · simpa [move, timeout, close, hc, ht] using Effect.timedOut hc ht.2
      · simpa [move, timeout, hc, ht] using Effect.same

/-- A flush or a send leaves everything of the connection but its queue. -/
theorem core_of_enqueueSend {conn conn' : Connection} {framed : Bytes} {fds : List Fd}
    {maxFds : ℕ} (h : (conn.enqueueSend maxFds framed fds kernel).conn = .ok conn') :
    conn'.core = conn.core :=
  (Connection.flushWrites_ok (Connection.enqueueSend_ok h).2).1

theorem owner_of_core {conn conn' : Connection} (h : conn'.core = conn.core) :
    conn'.id = conn.id ∧ conn'.caller = conn.caller := by
  have hid := congrArg Connection.id h
  have hcaller := congrArg Connection.caller h
  exact ⟨hid, hcaller⟩

/-- **No move changes whose connection it is.** -/
theorem Effect.owner {m : Move Req} {τ : Slot Req} (h : σ.Effect W handlers kernel m τ)
    {conn' : Connection} (hconn' : τ.conn = some conn') :
    (∃ id, m = .accept id ∧ conn' = .accepted id) ∨
      ∃ conn, σ.conn = some conn ∧ conn'.id = conn.id ∧ conn'.caller = conn.caller := by
  cases h with
  | same => exact .inr ⟨conn', hconn', rfl, rfl⟩
  | accepted id => exact .inl ⟨id, rfl, (Option.some.inj hconn').symm⟩
  | sent h m fds => exact .inr ⟨_, h, owner_of_core (core_of_enqueueSend (conn_settle.1 hconn'))⟩
  | broadcast h e kind htakes =>
    exact .inr ⟨_, h, owner_of_core (core_of_enqueueSend (conn_settle.1 hconn'))⟩
  | sentLast h m =>
    obtain ⟨hid, hcaller⟩ := owner_of_core (core_of_enqueueSend (conn_settle.1 hconn'))
    exact .inr ⟨_, h, hid, hcaller⟩
  | wants h b => exact .inr ⟨_, h, by cases hconn'; exact ⟨rfl, rfl⟩⟩
  | flushed h hwrite =>
    exact .inr ⟨_, h, owner_of_core (Connection.flushWrites_ok (conn_settle.1 hconn')).1⟩
  | read h hread frames =>
    refine .inr ⟨_, h, ?_⟩
    obtain rfl := Option.some.inj hconn'
    split <;> exact ⟨rfl, rfl⟩
  | served h hopen caller frame req heard => exact .inr ⟨conn', hconn', rfl, rfl⟩
  | stopped => exact .inr ⟨conn', hconn', rfl, rfl⟩
  | skipped h caller frame req heard => exact .inr ⟨conn', hconn', rfl, rfl⟩
  | gone h why => exact .inr ⟨conn', hconn', rfl, rfl⟩
  | closed h why => cases hconn'
  | timedOut h hsaw => cases hconn'

/-- **A trace only grows.** -/
theorem Effect.seen {m : Move Req} {τ : Slot Req} (h : σ.Effect W handlers kernel m τ) :
    σ.seen <+: τ.seen := by
  have hgrow : ∀ (σ' : Slot Req) (out : Outcome), σ.seen <+: σ'.seen →
      σ.seen <+: (σ'.settle handlers out).seen := by
    intro σ' out hle
    obtain ⟨rest, -, hseen⟩ := seen_settle σ' handlers out
    rw [hseen, List.append_assoc]
    exact hle.trans (List.prefix_append _ _)
  cases h with
  | same => exact List.prefix_refl _
  | accepted id => exact List.prefix_append _ _
  | sent hconn m fds => exact hgrow _ _ (List.prefix_append _ _)
  | broadcast hconn e kind htakes => exact hgrow _ _ (List.prefix_append _ _)
  | sentLast hconn m =>
    exact hgrow _ _ ((List.prefix_append _ _).trans (List.prefix_append _ _))
  | wants hconn b => exact List.prefix_refl _
  | flushed hconn hwrite => exact hgrow _ _ (List.prefix_refl _)
  | read hconn hread frames => exact List.prefix_append _ _
  | served hconn hopen caller frame req heard => exact List.prefix_append _ _
  | stopped => exact List.prefix_refl _
  | skipped hclosing caller frame req heard => exact List.prefix_refl _
  | gone hconn why => exact List.prefix_refl _
  | closed hconn why => exact List.prefix_append _ _
  | timedOut hconn hsaw => exact List.prefix_append _ _

end Slot

/-- What makes the moves legal: ids from `nextConnId` on are unused, a
connection is stored under its own id, and the pump remembers the token of
the connection it reads from. -/
structure Orderly (s : State Req) : Prop where
  unused : ∀ c, s.nextConnId ≤ c → s.slot c = .blank
  owner : ∀ c conn, s.connections[c]? = some conn → conn.id = c ∧ conn.caller = callerToken c
  pump : ∀ p, s.pump = some p → p.caller = callerToken p.conn

namespace State

theorem nextConnId_of_frame {s t : State Req} (h : t.frame = s.frame) :
    t.nextConnId = s.nextConnId := by
  have := congrArg State.nextConnId h
  exact this

theorem pump_of_frame {s t : State Req} (h : t.frame = s.frame) : t.pump = s.pump := by
  have := congrArg State.pump h
  exact this

theorem loopQuiesced_of_frame {s t : State Req} (h : t.frame = s.frame) :
    t.loopQuiesced = s.loopQuiesced := by
  have := congrArg State.loopQuiesced h
  exact this

theorem presence_of_frame {s t : State Req} (h : t.frame = s.frame) :
    t.presence = s.presence := by
  have := congrArg State.presence h
  exact this

theorem sink_of_frame {s t : State Req} (h : t.frame = s.frame) : t.sink = s.sink := by
  have := congrArg State.sink h
  exact this

variable (s : State Req)

/-- The presence after a call of an entry point. -/
def presenceAfter (W : Wire Req) : Action → Presence
  | .presence call => (s.presence.after W.readerInterfaceToken call).1
  | _ => s.presence

theorem frame_act (kernel : ConnId → List IoResult) (a : Action) :
    (s.act W kernel a).frame = { s with presence := s.presenceAfter W a }.frame := by
  cases a with
  | presence call =>
    simp only [act, publish, presenceAfter]
    cases (s.presence.after W.readerInterfaceToken call).2 with
    | none => rfl
    | some e => exact frame_broadcast _ kernel e .presence
  | sendTo c m fds => exact frame_sendTo s (kernel c) c m fds
  | sendThenClose c m => exact frame_sendThenClose s (kernel c) c m
  | replyState c req => exact frame_sendTo s (kernel c) c _ []
  | setWantsPresenceEvents c wants => exact frame_setWantsPresenceEvents s c wants
  | broadcastConfigChanged key => exact frame_broadcast s kernel _ .agentWide
  | broadcastQuiesced reason => exact frame_broadcast s kernel _ .agentWide

theorem frame_acceptOne (identified : Bool) :
    (s.acceptOne identified).frame = s.frame ∨
      (s.acceptOne identified).frame = { s with nextConnId := s.nextConnId + 1 }.frame := by
  unfold acceptOne
  split_ifs
  · exact .inl rfl
  · exact .inr rfl
  · exact .inl rfl

theorem frame_readReady {c : ConnId} {pumped : Pumped} {t : State Req}
    (h : s.readReady c pumped = some t) :
    ∃ conn, s.connections[c]? = some conn ∧
      t.frame = { s with pump := some ⟨c, conn.caller, pumped.frames, pumped.ok, false⟩ }.frame := by
  unfold readReady at h
  cases hc : s.connections[c]? with
  | none => simp [hc] at h
  | some conn =>
    simp only [hc] at h
    split at h
    · obtain rfl := Option.some.inj h
      exact ⟨conn, rfl, rfl⟩
    · cases h

theorem frame_turn (p : Pumping) :
    (s.turn W p).frame = s.endPump.frame ∨ ∃ frames serving,
      (s.turn W p).frame =
        { s with pump := some { p with frames := frames, serving := serving } }.frame := by
  unfold turn
  cases p.frames with
  | nil =>
    dsimp only
    split_ifs
    · exact .inl rfl
    · exact .inl (frame_closeConnection _ _ _)
  | cons frame frames =>
    dsimp only
    cases W.parseRequest frame.body with
    | none => exact .inl (frame_closeConnection _ _ _)
    | some req =>
      dsimp only
      cases s.connections[p.conn]? with
      | none => exact .inl rfl
      | some live =>
        dsimp only
        split_ifs
        · exact .inl rfl
        · exact .inr ⟨frames, s.sink, rfl⟩
        · exact .inr ⟨frames, s.sink, rfl⟩

theorem frame_writeReady {kernel : List IoResult} {c : ConnId} {t : State Req}
    (h : s.writeReady W kernel c = some t) : t.frame = s.frame := by
  unfold writeReady at h
  cases hc : s.connections[c]? with
  | none => simp [hc] at h
  | some conn =>
    simp only [hc] at h
    split at h
    · obtain rfl := Option.some.inj h
      exact frame_settle _ _ _
    · cases h

theorem frame_firstFrameTimeout {c : ConnId} {t : State Req}
    (h : s.firstFrameTimeout c = some t) : t.frame = s.frame := by
  unfold firstFrameTimeout at h
  cases hc : s.connections[c]? with
  | none => simp [hc] at h
  | some conn =>
    simp only [hc] at h
    split at h
    · obtain rfl := Option.some.inj h
      split
      · rfl
      · exact frame_closeConnection _ _ _
    · cases h

end State

/-- **Which event makes which move.** -/
inductive Origin (W : Wire Req) (s : State Req) (c : ConnId) : LoopEvent → Move Req → Prop
  | rest (e : LoopEvent) : Origin W s c e .rest
  | accept (hnext : s.nextConnId = c) (hsize : s.connections.size < kMaxConnections) :
      Origin W s c (.accept true) (.accept c)
  | read (pumped : Pumped) : Origin W s c (.readReady c pumped) (.read pumped.frames)
  | stop {p : Pumping} (hp : s.pump = some p) (hc : p.conn = c) (hf : p.frames = []) :
      Origin W s c .nextFrame .stop
  | stopAndClose {p : Pumping} (hp : s.pump = some p) (hc : p.conn = c) (why : CloseReason)
      (hwhy : why = .pumpEnded ∧ p.frames = [] ∨
        why = .malformed ∧ ∃ frame frames, p.frames = frame :: frames ∧
          W.parseRequest frame.body = none) :
      Origin W s c .nextFrame (.stopAndClose why)
  | serve {p : Pumping} (hp : s.pump = some p) (hc : p.conn = c) {frame : WireFrame}
      {frames : List WireFrame} (hf : p.frames = frame :: frames) {req : Req}
      (hreq : W.parseRequest frame.body = some req) :
      Origin W s c .nextFrame (.serve p.caller frame req s.sink)
  | send (m : Message) (fds : List Fd) : Origin W s c (.act (.sendTo c m fds)) (.send m fds)
  | sendThenClose (m : Message) : Origin W s c (.act (.sendThenClose c m)) (.sendThenClose m)
  | replyState (req : ℕ) :
      Origin W s c (.act (.replyState c req))
        (.send (.stateReply req s.presence.currentState) [])
  | wants (b : Bool) : Origin W s c (.act (.setWantsPresenceEvents c b)) (.wants b)
  | configChanged (key : String) :
      Origin W s c (.act (.broadcastConfigChanged key)) (.broadcast (.configChanged key) .agentWide)
  | agentQuiesced (reason : QuiesceReason) :
      Origin W s c (.act (.broadcastQuiesced reason))
        (.broadcast (.agentQuiesced reason) .agentWide)
  | presence {call : Presence.Call} {e : Event}
      (he : (s.presence.after W.readerInterfaceToken call).2 = some e) :
      Origin W s c (.act (.presence call)) (.broadcast e .presence)
  | writeReady : Origin W s c (.writeReady c) .writeReady
  | timeout : Origin W s c (.firstFrameTimeout c) .timeout

theorem origin_moveOn (s : State Req) (c : ConnId) (e : LoopEvent) :
    Origin W s c e (s.moveOn W c e) := by
  cases e with
  | accept identified =>
    simp only [State.moveOn]
    split
    · rename_i h
      obtain ⟨hnext, hsize, rfl⟩ := h
      exact .accept hnext hsize
    · exact .rest _
  | readReady d pumped =>
    by_cases h : d = c
    · subst h; simpa [State.moveOn] using Origin.read pumped
    · simpa [State.moveOn, h] using Origin.rest _
  | nextFrame =>
    simp only [State.moveOn]
    cases hp : s.pump with
    | none => exact .rest _
    | some p =>
      by_cases hc : p.conn = c
      · simp only [hc, if_true, State.turnMove]
        cases hf : p.frames with
        | nil =>
          dsimp only
          split
          · exact .stop hp hc hf
          · exact .stopAndClose hp hc .pumpEnded (.inl ⟨rfl, hf⟩)
        | cons frame frames =>
          dsimp only
          cases hreq : W.parseRequest frame.body with
          | none => exact .stopAndClose hp hc .malformed (.inr ⟨rfl, frame, frames, hf, hreq⟩)
          | some req => exact .serve hp hc hf hreq
      · simpa [hc] using Origin.rest _
  | act a =>
    cases a with
    | sendTo d m fds =>
      by_cases h : d = c
      · subst h; simpa [State.moveOn, State.called] using Origin.send m fds
      · simpa [State.moveOn, State.called, h] using Origin.rest _
    | sendThenClose d m =>
      by_cases h : d = c
      · subst h; simpa [State.moveOn, State.called] using Origin.sendThenClose m
      · simpa [State.moveOn, State.called, h] using Origin.rest _
    | replyState d req =>
      by_cases h : d = c
      · subst h; simpa [State.moveOn, State.called] using Origin.replyState req
      · simpa [State.moveOn, State.called, h] using Origin.rest _
    | setWantsPresenceEvents d b =>
      by_cases h : d = c
      · subst h; simpa [State.moveOn, State.called] using Origin.wants b
      · simpa [State.moveOn, State.called, h] using Origin.rest _
    | broadcastConfigChanged key => exact .configChanged key
    | broadcastQuiesced reason => exact .agentQuiesced reason
    | presence call =>
      simp only [State.moveOn, State.called]
      cases he : (s.presence.after W.readerInterfaceToken call).2 with
      | none => simpa [he] using Origin.rest _
      | some e => simpa [he] using Origin.presence he
  | writeReady d =>
    by_cases h : d = c
    · subst h; simpa [State.moveOn] using Origin.writeReady
    · simpa [State.moveOn, h] using Origin.rest _
  | firstFrameTimeout d =>
    by_cases h : d = c
    · subst h; simpa [State.moveOn] using Origin.timeout
    · simpa [State.moveOn, h] using Origin.rest _
  | quiesceLoop => exact .rest _

/-! What a step does beside the slots. -/

/-- An event leaves everything but the slots, the next id, the pump and the
presence alone, unless it is `quiesceLoop`. -/
theorem frame_step {s t : State Req} {i : Input} (h : s.step W i = some t) :
    (i.event = .quiesceLoop ∧ t = s.quiesceLoop) ∨
      ∃ n p q, s.nextConnId ≤ n ∧
        t.frame = ({ s with nextConnId := n, pump := p, presence := q } : State Req).frame := by
  obtain ⟨event, kernel⟩ := i
  have hspec := step_spec h
  cases event with
  | accept identified =>
    obtain ⟨-, rfl⟩ := hspec
    obtain hf | hf := s.frame_acceptOne identified
    · exact .inr ⟨_, _, _, Nat.le_refl _, hf⟩
    · exact .inr ⟨_, _, _, Nat.le_succ _, hf⟩
  | readReady c pumped =>
    obtain ⟨conn, -, hf⟩ := s.frame_readReady hspec.2
    exact .inr ⟨_, _, _, Nat.le_refl _, hf⟩
  | nextFrame =>
    obtain ⟨p, -, rfl⟩ := Option.map_eq_some_iff.1 hspec
    obtain hf | ⟨frames, serving, hf⟩ := s.frame_turn (W := W) p
    · exact .inr ⟨_, none, _, Nat.le_refl _, hf⟩
    · exact .inr ⟨_, _, _, Nat.le_refl _, hf⟩
  | act a =>
    obtain ⟨-, rfl⟩ := hspec
    exact .inr ⟨_, _, _, Nat.le_refl _, s.frame_act kernel a⟩
  | writeReady c => exact .inr ⟨_, _, _, Nat.le_refl _, s.frame_writeReady hspec.2⟩
  | firstFrameTimeout c => exact .inr ⟨_, _, _, Nat.le_refl _, s.frame_firstFrameTimeout hspec.2⟩
  | quiesceLoop => exact .inl ⟨rfl, hspec.2⟩

theorem nextConnId_step {s t : State Req} {i : Input} (h : s.step W i = some t) :
    s.nextConnId ≤ t.nextConnId := by
  obtain ⟨-, rfl⟩ | ⟨n, p, q, hle, hf⟩ := frame_step h
  · exact Nat.le_refl _
  · rw [State.nextConnId_of_frame hf]
    exact hle

/-- An id that is handed out is not handed out again. -/
theorem nextConnId_accept {s t : State Req} {kernel : ConnId → List IoResult}
    (h : s.step W ⟨.accept true, kernel⟩ = some t) (hsize : s.connections.size < kMaxConnections) :
    t.nextConnId = s.nextConnId + 1 := by
  obtain ⟨-, rfl⟩ := step_spec h
  have hcap : ¬ kMaxConnections ≤ s.connections.size := by omega
  simp [State.acceptOne, hcap, State.log]

/-- The pump is the one a read started, or the one that was there. -/
theorem pump_step {s t : State Req} {i : Input} (h : s.step W i = some t) {p : Pumping}
    (hp : t.pump = some p) :
    (∃ conn, s.connections[p.conn]? = some conn ∧ p.caller = conn.caller) ∨
      ∃ p₀, s.pump = some p₀ ∧ p.conn = p₀.conn ∧ p.caller = p₀.caller := by
  obtain ⟨event, kernel⟩ := i
  have hspec := step_spec h
  cases event with
  | accept identified =>
    obtain ⟨hnone, rfl⟩ := hspec
    obtain hf | hf := s.frame_acceptOne identified <;>
    · rw [State.pump_of_frame hf] at hp
      exact .inr ⟨p, hp, rfl, rfl⟩
  | readReady c pumped =>
    obtain ⟨conn, hc, hf⟩ := s.frame_readReady hspec.2
    rw [State.pump_of_frame hf] at hp
    obtain rfl := Option.some.inj hp
    exact .inl ⟨conn, hc, rfl⟩
  | nextFrame =>
    obtain ⟨p₀, hp₀, rfl⟩ := Option.map_eq_some_iff.1 hspec
    obtain hf | ⟨frames, serving, hf⟩ := s.frame_turn (W := W) p₀
    · rw [State.pump_of_frame hf] at hp
      cases hp
    · rw [State.pump_of_frame hf] at hp
      obtain rfl := Option.some.inj hp
      exact .inr ⟨p₀, hp₀, rfl, rfl⟩
  | act a =>
    obtain ⟨-, rfl⟩ := hspec
    rw [State.pump_of_frame (s.frame_act kernel a)] at hp
    exact .inr ⟨p, hp, rfl, rfl⟩
  | writeReady c =>
    rw [State.pump_of_frame (s.frame_writeReady hspec.2)] at hp
    exact .inr ⟨p, hp, rfl, rfl⟩
  | firstFrameTimeout c =>
    rw [State.pump_of_frame (s.frame_firstFrameTimeout hspec.2)] at hp
    exact .inr ⟨p, hp, rfl, rfl⟩
  | quiesceLoop =>
    obtain ⟨-, rfl⟩ := hspec
    exact .inr ⟨p, hp, rfl, rfl⟩

theorem effect_step {s t : State Req} {i : Input} (h : s.step W i = some t) (c : ConnId) :
    (s.slot c).Effect W s.disconnectHandlers (i.kernel c) (s.moveOn W c i.event) (t.slot c) := by
  rw [slot_step h c]
  exact Slot.effect_move W _ _ _ _

/-- A connection nothing is known of stays so until it is accepted. -/
theorem blank_move {m : Move Req} (hm : ∀ id, m ≠ .accept id) (handlers : List HandlerId)
    (kernel : List IoResult) :
    (Slot.blank : Slot Req).move W handlers kernel m = .blank := by
  cases m with
  | accept id => exact absurd rfl (hm id)
  | _ => rfl

theorem orderly_step {s t : State Req} {i : Input} (hs : Orderly s) (h : s.step W i = some t) :
    Orderly t where
  unused := by
    intro c hc
    rw [slot_step h c, hs.unused c (Nat.le_trans (nextConnId_step h) hc)]
    refine blank_move (fun id hm => ?_) _ _
    obtain ⟨event, kernel⟩ := i
    have horigin := origin_moveOn (W := W) s c event
    rw [hm] at horigin
    cases horigin with
    | accept hnext hsize =>
      rw [nextConnId_accept h hsize, hnext] at hc
      exact absurd hc (Nat.not_succ_le_self c)
  owner := by
    intro c conn' hconn'
    have heffect := effect_step h c
    obtain ⟨id, hm, rfl⟩ | ⟨conn, hconn, hid, hcaller⟩ := heffect.owner hconn'
    · have horigin := origin_moveOn (W := W) s c i.event
      rw [hm] at horigin
      generalize i.event = event at horigin
      cases horigin
      exact ⟨rfl, rfl⟩
    · rw [hid, hcaller]
      exact hs.owner c conn hconn
  pump := by
    intro p hp
    obtain ⟨conn, hconn, hcaller⟩ | ⟨p₀, hp₀, hconn, hcaller⟩ := pump_step h hp
    · rw [hcaller]; exact (hs.owner p.conn conn hconn).2
    · rw [hcaller, hconn]; exact hs.pump p₀ hp₀

theorem Started.slot {s : State Req} (h : Started s) (c : ConnId) : s.slot c = .blank := by
  simp [State.slot, State.inbound, State.seen, partOf, Slot.blank, h.connections, h.pump, h.trace]

theorem Started.orderly {s : State Req} (h : Started s) : Orderly s where
  unused c _ := h.slot c
  owner c conn hconn := by simp [h.connections] at hconn
  pump p hp := by simp [h.pump] at hp

theorem reachable_orderly {s : State Req} (h : (transport W).Reachable s) : Orderly s :=
  h.invariant (I := Orderly) (fun _ => Started.orderly) fun _ _ _ => orderly_step

/-- **Only legal moves occur.** -/
theorem legal {s t : State Req} {i : Input} (hs : Orderly s) (h : s.step W i = some t)
    (c : ConnId) : (s.moveOn W c i.event).Legal W c (s.slot c) := by
  obtain ⟨event, kernel⟩ := i
  have hspec := step_spec h
  have horigin := origin_moveOn (W := W) s c event
  generalize s.moveOn W c event = m at horigin
  cases horigin with
  | accept hnext hsize => exact ⟨rfl, hs.unused c hnext.le⟩
  | read pumped => simp [Move.Legal, State.inbound, hspec.1]
  | stop hp hc hf => simp [Move.Legal, State.inbound, hp, hc, hf]
  | stopAndClose hp hc why hwhy => exact hwhy.imp And.left And.left
  | serve hp hc hf hreq =>
    refine ⟨by simp [State.inbound, hp, hc, hf], ?_, hreq⟩
    rw [hs.pump _ hp, hc]
  | _ => trivial

/-- **What a step does to one connection**: a legal move, with the event it
comes from and the effect it has. -/
theorem step_at {s t : State Req} {i : Input} (hs : Orderly s) (h : s.step W i = some t)
    (c : ConnId) : ∃ m, Origin W s c i.event m ∧ m.Legal W c (s.slot c) ∧
      (s.slot c).Effect W s.disconnectHandlers (i.kernel c) m (t.slot c) :=
  ⟨_, origin_moveOn s c i.event, legal hs h c, effect_step h c⟩

/-- **What the legal moves keep, every run keeps.** -/
theorem reachable_slot {P : ConnId → Slot Req → Prop} (hblank : ∀ c, P c .blank)
    (hmove : ∀ c σ m handlers kernel, P c σ → Move.Legal W c σ m →
      P c (σ.move W handlers kernel m))
    {s : State Req} (h : (transport W).Reachable s) (c : ConnId) : P c (s.slot c) := by
  suffices hI : Orderly s ∧ ∀ c, P c (s.slot c) from hI.2 c
  refine h.invariant (I := fun s => Orderly s ∧ ∀ c, P c (s.slot c)) ?_ ?_
  · intro s hs
    refine ⟨Started.orderly hs, fun c => ?_⟩
    rw [Started.slot hs c]
    exact hblank c
  · rintro s i t ⟨hs, hP⟩ hst
    refine ⟨orderly_step hs hst, fun c => ?_⟩
    rw [slot_step hst c]
    exact hmove c _ _ _ _ (hP c) (legal hs hst c)

end Transport

end LibreDarwin
