import LibreDarwin.Transport.Replica
import LibreDarwin.Transport.Run

/-!
# Presence events, connection by connection

A presence event goes to every connection that takes presence events,
once, and to no other (`presenceIn_step`). With `replica_after` this is
all a client needs: one that listens from its GetState on has the presence
the agent has, at every moment (`presence_replica`).
-/

namespace LibreDarwin

namespace Wire

/-- The events a client builds its presence from. -/
def Event.isPresence : Event → Bool
  | .configChanged _ => false
  | .agentQuiesced _ => false
  | _ => true

end Wire

namespace Transport

open Wire
open Std (ExtTreeMap)

variable {Req : Type*} {W : Wire Req}

/-- The presence events a trace enqueued. -/
def presenceIn (seen : List (Obs Req)) : List Event :=
  seen.filterMap fun
    | .enqueued (.event e) _ => if e.isPresence then some e else none
    | _ => none

@[simp] theorem presenceIn_append (a b : List (Obs Req)) :
    presenceIn (a ++ b) = presenceIn a ++ presenceIn b := List.filterMap_append

theorem presenceIn_event (e : Event) (frame : Chunk) :
    presenceIn ([.enqueued (.event e) frame] : List (Obs Req)) =
      if e.isPresence then [e] else [] := by
  cases he : e.isPresence <;> simp [presenceIn, he]

/-- Where nothing was enqueued there is no presence event. -/
theorem presenceIn_eq_nil {seen : List (Obs Req)} (h : sentIn seen = []) :
    presenceIn seen = [] := by
  rw [sentIn, List.filterMap_eq_nil_iff] at h
  rw [presenceIn, List.filterMap_eq_nil_iff]
  intro o ho
  have hnone := h o ho
  cases o with
  | enqueued m frame => cases hnone
  | _ => rfl

/-- The event an entry point broadcasts is one a client understands. -/
theorem isPresence_after {token : ReaderInterface → String} {p : Presence}
    {call : Presence.Call} {e : Event} (h : (p.after token call).2 = some e) :
    e.isPresence = true := by
  cases call with
  | publishReader reader =>
    obtain rfl := Option.some.inj h
    rfl
  | publishCard card =>
    obtain rfl := Option.some.inj h
    rfl
  | relabelReader reader =>
    simp only [Presence.after, Presence.relabelReader] at h
    split at h
    · cases h
    · split at h
      · cases h
      · obtain rfl := Option.some.inj h
        rfl
  | withdraw object =>
    simp only [Presence.after, Presence.withdraw] at h
    split at h
    · cases h
    · split_ifs at h
      · obtain rfl := Option.some.inj h
        rfl
      · obtain rfl := Option.some.inj h
        rfl
  | updateProperties reader delta =>
    simp only [Presence.after, Presence.updateProperties] at h
    split at h
    · cases h
    · obtain rfl := Option.some.inj h
      rfl
  | updateCardType handle cardType =>
    simp only [Presence.after, Presence.updateCardType] at h
    split at h
    · cases h
    · split at h
      · cases h
      · obtain rfl := Option.some.inj h
        rfl

namespace Slot

variable {σ : Slot Req} {handlers : List HandlerId} {kernel : List IoResult}

theorem presenceIn_settle (out : Outcome) :
    presenceIn (σ.settle handlers out).seen = presenceIn σ.seen := by
  obtain ⟨rest, hrest, hseen⟩ := seen_settle σ handlers out
  have hio : presenceIn (out.io.map .io : List (Obs Req)) = [] := presenceIn_eq_nil (sentIn_io _)
  have hnone : presenceIn rest = [] := by
    rcases hrest with rfl | ⟨why, caller, rfl⟩
    · rfl
    · exact presenceIn_eq_nil (sentIn_farewell why handlers caller)
  rw [hseen, presenceIn_append, presenceIn_append, hio, hnone, List.append_nil, List.append_nil]

/-- The presence events a move enqueues, when no event is sent by name. -/
def heard (σ : Slot Req) : Move Req → List Event
  | .broadcast e kind => if σ.Takes kind ∧ e.isPresence = true then [e] else []
  | _ => []

/-- A broadcast enqueues its event once, where it is taken. -/
theorem presenceIn_broadcast (e : Event) (kind : EventKind) :
    presenceIn (σ.broadcast W handlers kernel e kind).seen =
      presenceIn σ.seen ++ σ.heard (.broadcast e kind) := by
  by_cases htakes : σ.Takes kind
  · obtain ⟨conn, hconn, -⟩ := id htakes
    have hconn : σ.conn = some conn := hconn
    have hsend : σ.broadcast W handlers kernel e kind =
        (σ.log [.enqueued (.event e) (frameOf W (.event e) [])]).settle handlers
          (conn.enqueueSend W.kMaxFrameFds (frameOf W (.event e) []).data [] kernel) := by
      rw [broadcast, if_pos htakes, send, hconn]
    rw [hsend, presenceIn_settle, seen_log, presenceIn_append, presenceIn_event]
    simp [heard, htakes]
  · rw [broadcast, if_neg htakes]
    simp [heard, htakes]

/-- A frame that is not an event. -/
theorem presenceIn_reply {m : Message} (h : ∀ e, m ≠ .event e) (frame : Chunk) :
    presenceIn ([.enqueued m frame] : List (Obs Req)) = [] := by
  cases m with
  | event e => exact absurd rfl (h e)
  | _ => rfl

/-- Any other move tells it nothing, unless an event is sent by name. -/
theorem Effect.presenceIn_eq {m : Move Req} {τ : Slot Req} (h : σ.Effect W handlers kernel m τ)
    (hcast : ∀ e kind, m ≠ .broadcast e kind) (hsend : ∀ e fds, m ≠ .send (.event e) fds)
    (hlast : ∀ e, m ≠ .sendThenClose (.event e)) :
    presenceIn τ.seen = presenceIn σ.seen := by
  have hquiet : ∀ obs : List (Obs Req), sentIn obs = [] →
      Transport.presenceIn (σ.seen ++ obs) = Transport.presenceIn σ.seen := by
    intro obs hobs
    rw [presenceIn_append, presenceIn_eq_nil hobs, List.append_nil]
  cases h with
  | same => rfl
  | accepted id => exact hquiet [.connected] rfl
  | @sent conn hconn m fds =>
    have hm : ∀ e, m ≠ .event e := by
      rintro e rfl
      exact hsend e fds rfl
    rw [presenceIn_settle, seen_log, presenceIn_append, presenceIn_reply hm, List.append_nil]
  | broadcast hconn e kind htakes => exact absurd rfl (hcast e kind)
  | @sentLast conn hconn m =>
    have hm : ∀ e, m ≠ .event e := by
      rintro e rfl
      exact hlast e rfl
    rw [presenceIn_settle, seen_log, presenceIn_append, presenceIn_reply hm, List.append_nil]
    exact hquiet [.lastFrame] rfl
  | wants hconn b => rfl
  | flushed hconn hwrite => exact presenceIn_settle _
  | read hconn hread frames => exact hquiet _ (sentIn_delivered frames)
  | served hconn hopen caller frame req heard =>
    exact hquiet _ (sentIn_served heard caller req frame.fds)
  | stopped => rfl
  | skipped hclosing caller frame req heard => rfl
  | gone hconn why => rfl
  | closed hconn why => exact hquiet _ (sentIn_farewell why handlers _)
  | timedOut hconn hsaw => exact hquiet _ (sentIn_farewell .firstFrameTimeout handlers _)

/-- **What a move tells a client of the presence.** -/
theorem presenceIn_move {m : Move Req} (hsend : ∀ e fds, m ≠ .send (.event e) fds)
    (hlast : ∀ e, m ≠ .sendThenClose (.event e)) :
    presenceIn (σ.move W handlers kernel m).seen = presenceIn σ.seen ++ σ.heard m := by
  by_cases hcast : ∃ e kind, m = .broadcast e kind
  · obtain ⟨e, kind, rfl⟩ := hcast
    exact presenceIn_broadcast e kind
  · have hother : ∀ e kind, m ≠ .broadcast e kind := fun e kind heq => hcast ⟨e, kind, heq⟩
    have hnothing : σ.heard m = [] := by
      unfold heard
      split
      · exact absurd rfl (hother _ _)
      · rfl
    rw [hnothing, List.append_nil]
    exact (effect_move W σ handlers kernel m).presenceIn_eq hother hsend hlast

/-- A connection that is open was open before, or has just been
accepted. -/
theorem Effect.stays_open {m : Move Req} {τ : Slot Req} (h : σ.Effect W handlers kernel m τ)
    {conn' : Connection} (hconn' : τ.conn = some conn') (hopen' : conn'.closeWhenDrained = false) :
    (∃ id, m = .accept id) ∨
      ∃ conn, σ.conn = some conn ∧ conn.closeWhenDrained = false := by
  cases h with
  | same => exact .inr ⟨conn', hconn', hopen'⟩
  | accepted id => exact .inl ⟨id, rfl⟩
  | sent h m fds =>
    have hcore := core_of_enqueueSend (conn_settle.1 hconn')
    exact .inr ⟨_, h, (Connection.closeWhenDrained_of_core hcore).symm.trans hopen'⟩
  | broadcast h e kind htakes => exact .inr ⟨_, h, htakes.1⟩
  | sentLast h m =>
    -- a connection that got its last frame is on its way out
    have hcore := core_of_enqueueSend (conn_settle.1 hconn')
    have hclosing := Connection.closeWhenDrained_of_core hcore
    rw [hopen'] at hclosing
    cases hclosing
  | wants h b =>
    obtain rfl := Option.some.inj hconn'
    exact .inr ⟨_, h, hopen'⟩
  | flushed h hwrite =>
    have hcore := (Connection.flushWrites_ok (conn_settle.1 hconn')).1
    exact .inr ⟨_, h, (Connection.closeWhenDrained_of_core hcore).symm.trans hopen'⟩
  | read h hread frames =>
    refine .inr ⟨_, h, ?_⟩
    obtain rfl := Option.some.inj hconn'
    split at hopen'
    · exact hopen'
    · exact hopen'
  | served h hopen caller frame req heard => exact .inr ⟨conn', hconn', hopen'⟩
  | stopped => exact .inr ⟨conn', hconn', hopen'⟩
  | skipped h caller frame req heard => exact .inr ⟨conn', hconn', hopen'⟩
  | gone h why => exact .inr ⟨conn', hconn', hopen'⟩
  | closed h why => cases hconn'
  | timedOut h hsaw => cases hconn'

end Slot

/-- The presence event of a loop event, if it has one. -/
def State.presenceEvent (W : Wire Req) (s : State Req) : LoopEvent → Option Event
  | .act (.presence call) => (s.presence.after W.readerInterfaceToken call).2
  | _ => none

/-- What `sendTo` and `sendThenClose` are given for a connection is a
reply or a message of an operation: events reach it by broadcast only. -/
def ByBroadcast (c : ConnId) (i : Input) : Prop :=
  ∀ e, (∀ fds, i.event ≠ .act (.sendTo c (.event e) fds)) ∧
    i.event ≠ .act (.sendThenClose c (.event e))

theorem heard_moveOn (s : State Req) (c : ConnId) (event : LoopEvent) :
    (s.slot c).heard (s.moveOn W c event) =
      if (s.slot c).Takes .presence then (s.presenceEvent W event).toList else [] := by
  have hrest : ∀ σ : Slot Req, σ.heard .rest = [] := fun _ => rfl
  cases event with
  | act a =>
    cases a with
    | presence call =>
      simp only [State.moveOn, State.called, State.presenceEvent]
      cases he : (s.presence.after W.readerInterfaceToken call).2 with
      | none => simp [Slot.heard]
      | some e =>
        have hpresence := isPresence_after he
        simp [Slot.heard, hpresence]
    -- the other broadcasts are not presence events
    | broadcastConfigChanged key =>
      simp [State.moveOn, State.called, State.presenceEvent, Slot.heard, Event.isPresence]
    | broadcastQuiesced reason =>
      simp [State.moveOn, State.called, State.presenceEvent, Slot.heard, Event.isPresence]
    | _ =>
      simp only [State.moveOn, State.called, State.presenceEvent]
      split <;> simp [Slot.heard]
  | _ =>
    simp only [State.moveOn, State.presenceEvent, State.turnMove]
    repeat' split
    all_goals simp [Slot.heard]

/-- **Every presence event is enqueued once to each connection that takes
presence events, and to no other.** -/
theorem presenceIn_step {s t : State Req} {i : Input} (h : s.step W i = some t) {c : ConnId}
    (hcast : ByBroadcast c i) :
    presenceIn (t.seen c) = presenceIn (s.seen c) ++
      if (s.slot c).Takes .presence then (s.presenceEvent W i.event).toList else [] := by
  obtain ⟨event, kernel⟩ := i
  have hseen : t.seen c =
      ((s.slot c).move W s.disconnectHandlers (kernel c) (s.moveOn W c event)).seen := by
    rw [← slot_step h c]
    rfl
  have horigin := origin_moveOn (W := W) s c event
  have hsend : ∀ e fds, s.moveOn W c event ≠ .send (.event e) fds := by
    intro e fds heq
    rw [heq] at horigin
    cases horigin
    exact (hcast e).1 fds rfl
  have hlast : ∀ e, s.moveOn W c event ≠ .sendThenClose (.event e) := by
    intro e heq
    rw [heq] at horigin
    cases horigin
    exact (hcast e).2 rfl
  rw [hseen, Slot.presenceIn_move hsend hlast, heard_moveOn]
  rfl

/-- The presence changes by the entry points alone. -/
theorem presence_step {s t : State Req} {i : Input} (h : s.step W i = some t) :
    (∃ call, i.event = .act (.presence call) ∧
      t.presence = (s.presence.after W.readerInterfaceToken call).1) ∨
    s.presenceEvent W i.event = none ∧ t.presence = s.presence := by
  obtain ⟨event, kernel⟩ := i
  have hspec := step_spec h
  cases event with
  | accept identified =>
    obtain ⟨-, rfl⟩ := hspec
    refine .inr ⟨rfl, ?_⟩
    rcases s.frame_acceptOne identified with hf | hf
    · exact State.presence_of_frame hf
    · have hsame := State.presence_of_frame hf
      exact hsame
  | readReady c pumped =>
    obtain ⟨conn, -, hf⟩ := s.frame_readReady hspec.2
    have hsame := State.presence_of_frame hf
    exact .inr ⟨rfl, hsame⟩
  | nextFrame =>
    obtain ⟨p, -, rfl⟩ := Option.map_eq_some_iff.1 hspec
    refine .inr ⟨rfl, ?_⟩
    rcases s.frame_turn (W := W) p with hf | ⟨frames, serving, hf⟩
    · have hsame := State.presence_of_frame hf
      exact hsame
    · have hsame := State.presence_of_frame hf
      exact hsame
  | act a =>
    obtain ⟨-, rfl⟩ := hspec
    have hf := State.presence_of_frame (s.frame_act (W := W) kernel a)
    cases a with
    | presence call => exact .inl ⟨call, rfl, hf⟩
    | _ => exact .inr ⟨rfl, hf⟩
  | writeReady c => exact .inr ⟨rfl, State.presence_of_frame (s.frame_writeReady hspec.2)⟩
  | firstFrameTimeout c =>
    exact .inr ⟨rfl, State.presence_of_frame (s.frame_firstFrameTimeout hspec.2)⟩
  | quiesceLoop =>
    obtain ⟨-, rfl⟩ := hspec
    exact .inr ⟨rfl, rfl⟩

/-- **A step changes the presence as its event changes a replica.** -/
theorem replica_step (htoken : Function.Injective W.readerInterfaceToken) {s t : State Req}
    {i : Input} (hs : s.presence.ByHandle) (h : s.step W i = some t) :
    t.presence.ByHandle ∧ t.presence.replica =
      (s.presenceEvent W i.event).toList.foldl (Replica.apply W.readerInterfaceToken)
        s.presence.replica := by
  rcases presence_step h with ⟨call, hevent, ht⟩ | ⟨hnone, ht⟩
  · rw [ht, hevent]
    exact Presence.replica_after htoken hs call
  · rw [ht, hnone]
    exact ⟨hs, rfl⟩

theorem reachable_byHandle (htoken : Function.Injective W.readerInterfaceToken) {s : State Req}
    (hs : (transport W).Reachable s) : s.presence.ByHandle := by
  refine hs.invariant (I := fun s => s.presence.ByHandle) ?_ ?_
  · intro s hstart
    rw [hstart.presence]
    exact .empty
  · intro s i t hs h
    exact (replica_step htoken hs h).1

/-- **A connection that listens**: it takes presence events, and gets them
by broadcast. -/
structure Listens (c : ConnId) (s : State Req) (i : Input) : Prop where
  wants : ∀ conn, s.connections[c]? = some conn → conn.wantsPresenceEvents = true
  cast : ByBroadcast c i

/-- A connection that has followed the presence since its trace was
`base`, starting from the replica `start`. -/
structure Follows (W : Wire Req) (base : List (Obs Req)) (start : Replica) (c : ConnId)
    (s : State Req) : Prop where
  orderly : Orderly s
  byHandle : s.presence.ByHandle
  since : ∃ post, s.seen c = base ++ post ∧
    ∀ conn, s.connections[c]? = some conn → conn.closeWhenDrained = false →
      (presenceIn post).foldl (Replica.apply W.readerInterfaceToken) start = s.presence.replica

/-- **One step of a connection that listens.** The event it is sent, if
any, is what changed the presence. -/
theorem Follows.step (htoken : Function.Injective W.readerInterfaceToken)
    {base : List (Obs Req)} (hbase : base ≠ []) {start : Replica} {c : ConnId} {s t : State Req}
    {i : Input} (h : Follows W base start c s) (hlistens : Listens c s i)
    (hst : s.step W i = some t) : Follows W base start c t := by
  obtain ⟨post, hpost, hfold⟩ := h.since
  obtain ⟨hbyHandle, hreplica⟩ := replica_step htoken h.byHandle hst
  obtain ⟨m, -, hlegal, heffect⟩ := step_at h.orderly hst c
  have hgrows : s.seen c <+: t.seen c := heffect.seen
  obtain ⟨obs, hobs⟩ := hgrows
  have hheard := presenceIn_step hst hlistens.cast
  rw [← hobs, presenceIn_append] at hheard
  have hobsEvents := List.append_cancel_left hheard
  refine ⟨orderly_step h.orderly hst, hbyHandle, post ++ obs, ?_, ?_⟩
  · rw [← hobs, hpost, List.append_assoc]
  · intro conn' hconn' hopen'
    rcases heffect.stays_open hconn' hopen' with ⟨id, rfl⟩ | ⟨conn, hconn, hopen⟩
    · -- a connection with a trace is not accepted again
      have hblank : s.seen c = [] := congrArg Slot.seen hlegal.2
      rw [hpost] at hblank
      exact absurd (List.append_eq_nil_iff.1 hblank).1 hbase
    · have hwants := hlistens.wants conn hconn
      have htakes : (s.slot c).Takes .presence := ⟨conn, hconn, hopen, .inr hwants⟩
      rw [if_pos htakes] at hobsEvents
      rw [presenceIn_append, List.foldl_append, hfold conn hconn hopen, hobsEvents, hreplica]

/-- The reply to a GetState, from which a connection starts to follow. -/
theorem follows_of_replyState (htoken : Function.Injective W.readerInterfaceToken)
    {s t : State Req} {c : ConnId} {req : ℕ} {kernel : ConnId → List IoResult}
    (hs : (transport W).Reachable s) (hc : c ∈ s.connections)
    (h : s.step W ⟨.act (.replyState c req), kernel⟩ = some t) :
    Follows W
      (s.seen c ++ [.enqueued (.stateReply req s.presence.currentState)
        (frameOf W (.stateReply req s.presence.currentState) [])])
      (Replica.of s.presence.currentState) c t := by
  obtain ⟨conn, hconn⟩ := Option.isSome_iff_exists.1 (ExtTreeMap.mem_iff_isSome_getElem?.1 hc)
  have hmove := slot_step h c
  simp only [State.moveOn, State.called, if_true, Slot.move, Slot.send, State.slot_conn,
    hconn] at hmove
  generalize conn.enqueueSend _ _ _ _ = out at hmove
  obtain ⟨rest, hrest, hseen⟩ := Slot.seen_settle ((s.slot c).log [.enqueued
    (.stateReply req s.presence.currentState) (frameOf W (.stateReply req
      s.presence.currentState) [])]) s.disconnectHandlers out
  rw [← hmove] at hseen
  have hnothing : presenceIn (out.io.map .io ++ rest : List (Obs Req)) = [] := by
    refine presenceIn_eq_nil ?_
    rw [sentIn_append, sentIn_io, List.nil_append]
    rcases hrest with rfl | ⟨why, caller, rfl⟩
    · rfl
    · exact sentIn_farewell why s.disconnectHandlers caller
  have hbyHandle := reachable_byHandle htoken hs
  have hreplica := replica_step htoken hbyHandle h
  refine ⟨orderly_step (reachable_orderly hs) h, hreplica.1, out.io.map .io ++ rest, ?_, ?_⟩
  · rw [← List.append_assoc]
    exact hseen
  · intro conn' _ _
    rw [hnothing, hbyHandle.of_currentState, hreplica.2]
    rfl

/-- **The presence replica.** Every presence event is enqueued once to each
connection that takes presence events, and to no other. And whoever
applies the presence events enqueued to a connection after the reply to a
GetState, to that reply, has what a GetState would answer now: in every
run from the reply on in which the connection listens, for as long as it
is open. -/
theorem presence_replica (htoken : Function.Injective W.readerInterfaceToken) :
    (∀ (s t : State Req) (i : Input) (c : ConnId), s.step W i = some t → ByBroadcast c i →
      presenceIn (t.seen c) = presenceIn (s.seen c) ++
        if (s.slot c).Takes .presence then (s.presenceEvent W i.event).toList else []) ∧
    ∀ (s t u : State Req) (c : ConnId) (req : ℕ) (kernel : ConnId → List IoResult)
      (is : List Input) (conn : Connection), (transport W).Reachable s → c ∈ s.connections →
      (transport W).step s ⟨.act (.replyState c req), kernel⟩ = some t →
      (transport W).RunWhere (Listens c) t is u →
      u.connections[c]? = some conn → conn.closeWhenDrained = false →
      ∃ post,
        u.seen c = s.seen c ++ .enqueued (.stateReply req s.presence.currentState)
          (frameOf W (.stateReply req s.presence.currentState) []) :: post ∧
        ((presenceIn post).foldl (Replica.apply W.readerInterfaceToken)
          (Replica.of s.presence.currentState)).state = u.presence.currentState := by
  refine ⟨fun s t i c hst hcast => presenceIn_step hst hcast, ?_⟩
  intro s t u c req kernel is conn hs hc hst hrun hconn hopen
  have hfollows : Follows W _ (Replica.of s.presence.currentState) c u := hrun.invariant
    (fun s i s' hfollows hlistens hst => hfollows.step htoken (by simp) hlistens hst)
    (follows_of_replyState htoken hs hc hst)
  obtain ⟨post, hseen, hfold⟩ := hfollows.since
  have hreplica := hfold conn hconn hopen
  refine ⟨post, ?_, ?_⟩
  · rw [hseen, List.append_assoc]
    rfl
  · rw [hreplica]
    rfl

theorem plainToken_injective : Function.Injective plainToken := by
  intro i j h
  cases i <;> cases j <;> first | rfl | simp [plainToken] at h

/-- A client connects while one reader is published and asks for the
state. -/
def listening : List Input :=
  [⟨.accept true, fun _ => []⟩,
   ⟨.act (.presence (.publishReader ⟨7, "Reader", false, none, "", .unknown⟩)),
    fun _ => [.wrote 9]⟩]

/-- A card is inserted, and the reader gets its label. -/
def inserted : List Input :=
  [⟨.act (.presence (.updateProperties 7 ⟨true, some 8⟩)), fun _ => [.wrote 9]⟩,
   ⟨.act (.presence (.relabelReader ⟨7, "Reader", true, some 8, "Model", .contact⟩)),
    fun _ => [.wrote 9]⟩]

theorem presence_replica_inserted :
    ∃ s t u, (transport plainWire).run (.start []) listening = some s ∧
      (transport plainWire).step s ⟨.act (.replyState 1 3), fun _ => [.wrote 9]⟩ = some t ∧
      (transport plainWire).run t inserted = some u ∧
      ∃ post, u.seen 1 = s.seen 1 ++ .enqueued (.stateReply 3 s.presence.currentState)
          (frameOf plainWire (.stateReply 3 s.presence.currentState) []) :: post ∧
        ((presenceIn post).foldl (Replica.apply plainToken)
          (Replica.of s.presence.currentState)).state = u.presence.currentState := by
  have hreach : ∀ s, (transport plainWire).run (.start []) listening = some s →
      (transport plainWire).Reachable s := fun s hrun => ⟨_, _, State.started_start [], hrun⟩
  have hlistens : ∀ (s : State Bytes) (i : Input), (∃ call, i.event = .act (.presence call)) →
      (s.connections[1]?.all fun conn => conn.wantsPresenceEvents) = true → Listens 1 s i := by
    rintro s i ⟨call, hevent⟩ hall
    refine ⟨fun conn hconn => ?_, fun e => ⟨fun fds heq => ?_, fun heq => ?_⟩⟩
    · rw [hconn] at hall
      exact hall
    · rw [hevent] at heq
      cases heq
    · rw [hevent] at heq
      cases heq
  refine ⟨_, _, _, rfl, rfl, rfl, ?_⟩
  refine (presence_replica (W := plainWire) plainToken_injective).2 _ _ _ 1 3
    (fun _ => [.wrote 9]) inserted _ (hreach _ rfl) (by decide) rfl ?_ rfl rfl
  exact .cons (hlistens _ _ ⟨_, rfl⟩ rfl) rfl (.cons (hlistens _ _ ⟨_, rfl⟩ rfl) rfl (.nil _))

end Transport

end LibreDarwin
