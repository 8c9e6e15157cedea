import LibreDarwin.Transport.Queue
import LibreDarwin.Transport.Table

/-!
# The mail of a connection

What a connection was handed beside the events: the replies, and what
operations emit. A step of the loop adds to it what it sends to that
connection by name, if the connection is there (`mail_step`), so that
whoever makes those calls knows all the mail there is.
-/

namespace LibreDarwin

namespace Transport

open Wire
open Std (ExtTreeMap)

variable {Req : Type*} {W : Wire Req}

/-- Whether a message is one of the events. -/
def IsEvent : Message → Bool
  | .event _ => true
  | _ => false

/-- The messages a trace enqueued, without the events. -/
def mailIn (seen : List (Obs Req)) : List Message :=
  seen.filterMap fun
    | .enqueued m _ => if IsEvent m then none else some m
    | _ => none

@[simp] theorem mailIn_append (a b : List (Obs Req)) : mailIn (a ++ b) = mailIn a ++ mailIn b :=
  List.filterMap_append

/-- A trace that enqueued nothing has no mail. -/
theorem mailIn_eq_nil {seen : List (Obs Req)} (h : sentIn seen = []) : mailIn seen = [] := by
  simp only [sentIn, mailIn, List.filterMap_eq_nil_iff] at h ⊢
  intro e he
  have hnone := h e he
  cases e <;> simp_all

/-- What a message adds to the mail. -/
def mailOf (m : Message) : List Message := if IsEvent m then [] else [m]

@[simp] theorem mailIn_enqueued (m : Message) (frame : Chunk) :
    mailIn ([.enqueued m frame] : List (Obs Req)) = mailOf m := by
  cases h : IsEvent m <;> simp [mailIn, mailOf, h]

/-- What a move sends by name. -/
def Move.mail : Move Req → List Message
  | .send m _ | .sendThenClose m => mailOf m
  | _ => []

namespace Slot

variable {σ : Slot Req} {handlers : List HandlerId} {kernel : List IoResult}

theorem mailIn_settle (out : Outcome) :
    mailIn (σ.settle handlers out).seen = mailIn σ.seen := by
  obtain ⟨rest, hrest, hseen⟩ := seen_settle σ handlers out
  have hio : mailIn (out.io.map .io : List (Obs Req)) = [] := mailIn_eq_nil (sentIn_io _)
  have hnone : mailIn rest = [] := by
    rcases hrest with rfl | ⟨why, caller, rfl⟩
    · rfl
    · exact mailIn_eq_nil (sentIn_farewell why handlers caller)
  rw [hseen, mailIn_append, mailIn_append, hio, hnone, List.append_nil, List.append_nil]

theorem mailIn_send (m : Message) (fds : List Fd) :
    mailIn (σ.send W handlers kernel m fds).seen =
      mailIn σ.seen ++ if σ.conn.isSome then mailOf m else [] := by
  unfold send
  cases hconn : σ.conn with
  | none => simp
  | some conn =>
    dsimp only
    rw [mailIn_settle, seen_log, mailIn_append, mailIn_enqueued]
    rfl

/-- What a move adds to a trace, where it enqueues nothing. -/
theorem mailIn_log {obs : List (Obs Req)} (h : sentIn obs = []) :
    mailIn (σ.log obs).seen = mailIn σ.seen := by
  rw [seen_log, mailIn_append, mailIn_eq_nil h, List.append_nil]

theorem mailIn_close (why : CloseReason) :
    mailIn (σ.close handlers why).seen = mailIn σ.seen := by
  unfold close
  split
  · rfl
  · exact mailIn_log (sentIn_farewell _ _ _)

/-- **What a move adds to the mail.** -/
theorem mailIn_move (m : Move Req) :
    mailIn (σ.move W handlers kernel m).seen =
      mailIn σ.seen ++ if σ.conn.isSome then m.mail else [] := by
  cases m with
  | send m fds => exact mailIn_send m fds
  | sendThenClose m =>
    simp only [move, Slot.sendThenClose, Move.mail]
    cases hconn : σ.conn with
    | none => simp
    | some conn =>
      dsimp only
      rw [mailIn_send, mailIn_log rfl]
      rfl
  | broadcast e kind =>
    have hcast : mailIn (σ.broadcast W handlers kernel e kind).seen = mailIn σ.seen := by
      unfold broadcast
      split
      · rw [mailIn_send]
        simp [mailOf, IsEvent]
      · rfl
    rw [move, hcast]
    simp [Move.mail]
  | writeReady =>
    simp only [move, writeReady, Move.mail, ite_self, List.append_nil]
    split
    · rfl
    · split
      · exact mailIn_settle _
      · rfl
  | read frames =>
    simp only [move, Slot.read, Move.mail, ite_self, List.append_nil]
    split
    · rfl
    · split
      · exact mailIn_log (sentIn_delivered frames)
      · rfl
  | serve caller frame req heard =>
    simp only [move, serve, Move.mail, ite_self, List.append_nil]
    split
    · rfl
    · split
      · rfl
      · exact mailIn_log (sentIn_served heard caller req frame.fds)
  | stopAndClose why =>
    simp only [move, Move.mail, ite_self, List.append_nil]
    exact mailIn_close why
  | timeout =>
    simp only [move, timeout, Move.mail, ite_self, List.append_nil]
    split
    · rfl
    · split
      · exact mailIn_close _
      · rfl
  | accept id => simp [move, Move.mail]; rfl
  | rest => simp [move, Move.mail]
  | wants b => simp [move, Move.mail, Slot.wants]
  | stop => simp [move, Move.mail, Slot.stop]

end Slot

/-- **A step adds to a connection's mail** what its move there sends, if
the connection is in the table. -/
theorem mail_step {s t : State Req} {i : Input} (h : s.step W i = some t) (c : ConnId) :
    mailIn (t.seen c) = mailIn (s.seen c) ++
      if c ∈ s.connections then (s.moveOn W c i.event).mail else [] := by
  have hslot := congrArg Slot.seen (slot_step h c)
  rw [State.slot_seen] at hslot
  rw [hslot, Slot.mailIn_move, State.slot_seen, State.slot_conn]
  simp only [ExtTreeMap.mem_iff_isSome_getElem?]

/-- The messages a list of sends hands one connection. -/
def mailFor (c : ConnId) (mail : List (ConnId × Message)) : List Message :=
  mail.filterMap fun e => if e.1 = c then some e.2 else none

@[simp] theorem mailFor_nil (c : ConnId) : mailFor c [] = [] := rfl

@[simp] theorem mailFor_append (c : ConnId) (a b : List (ConnId × Message)) :
    mailFor c (a ++ b) = mailFor c a ++ mailFor c b := List.filterMap_append

/-- What a call of an entry point sends by name, to whom. -/
def Action.mail (s : State Req) : Action → List (ConnId × Message)
  | .sendTo c m _ | .sendThenClose c m => (mailOf m).map fun m => (c, m)
  | .replyState c req => [(c, .stateReply req s.presence.currentState)]
  | _ => []

theorem mailFor_map (c d : ConnId) (ms : List Message) :
    mailFor c (ms.map fun m => (d, m)) = if d = c then ms else [] := by
  unfold mailFor
  rw [List.filterMap_map]
  by_cases hd : d = c
  · simp [hd]
  · simp [hd]

/-- The mail of a call, seen from one connection. -/
theorem mail_called (s : State Req) (c : ConnId) (a : Action) :
    (s.called W c a).mail = mailFor c (a.mail s) := by
  cases a with
  | sendTo d m fds =>
    rw [Action.mail, mailFor_map, State.called]
    split <;> rfl
  | sendThenClose d m =>
    rw [Action.mail, mailFor_map, State.called]
    split <;> rfl
  | replyState d req =>
    have hmail := mailFor_map c d [.stateReply req s.presence.currentState]
    rw [List.map_singleton] at hmail
    rw [Action.mail, hmail, State.called]
    split <;> rfl
  | setWantsPresenceEvents d wants =>
    rw [State.called]
    split <;> rfl
  | presence call =>
    simp only [State.called]
    split <;> rfl
  | _ => rfl

/-- **A call adds to the mail** what it sends, for the connections in the
table; any other event of the loop adds nothing. -/
theorem mail_act {s t : State Req} {a : Action} {kernel : ConnId → List IoResult}
    (h : s.step W ⟨.act a, kernel⟩ = some t) (c : ConnId) :
    mailIn (t.seen c) = mailIn (s.seen c) ++
      if c ∈ s.connections then mailFor c (a.mail s) else [] := by
  rw [mail_step h c, ← mail_called]
  rfl

theorem mail_event {s t : State Req} {i : Input} (h : s.step W i = some t)
    (hevent : ∀ a, i.event = .act a → a.mail s = []) (c : ConnId) :
    mailIn (t.seen c) = mailIn (s.seen c) := by
  have hmove : (s.moveOn W c i.event).mail = [] := by
    cases he : i.event with
    | act a =>
      have hmail := mail_called (W := W) s c a
      rw [hevent a he, mailFor_nil] at hmail
      exact hmail
    | _ =>
      have horigin := origin_moveOn (W := W) s c i.event
      rw [he] at horigin
      generalize s.moveOn W c _ = m at horigin ⊢
      cases horigin <;> rfl
  rw [mail_step h c, hmove, ite_self, List.append_nil]

/-- **A connection that is gone** stays so: its id is used. -/
theorem gone_step {s t : State Req} {i : Input} (h : s.step W i = some t) {c : ConnId}
    (hused : c < s.nextConnId) (hgone : c ∉ s.connections) : c ∉ t.connections := by
  intro hc
  rcases mem_connections_step h hc with hmem | hmove
  · exact hgone hmem
  · have horigin := origin_moveOn (W := W) s c i.event
    rw [hmove] at horigin
    generalize i.event = event at horigin
    cases horigin with
    | accept hnext hsize => exact absurd hnext (Nat.ne_of_gt hused)

theorem used_of_mem {s : State Req} (hs : Orderly s) {c : ConnId} (hc : c ∈ s.connections) :
    c < s.nextConnId := by
  by_contra hge
  have hblank := hs.unused c (Nat.le_of_not_lt hge)
  have hnone : s.connections[c]? = none := by
    rw [← State.slot_conn, hblank]
    rfl
  rw [ExtTreeMap.mem_iff_isSome_getElem?, hnone] at hc
  cases hc

/-- **A connection whose disconnect a handler heard of** is gone for good,
also after `quiesceLoop`. -/
theorem gone_of_heard {s : State Req} (h : (transport W).Reachable s) {c : ConnId}
    {handler : HandlerId} {caller : CallerToken}
    (hmem : (c, .disconnected handler caller) ∈ s.trace) :
    caller = callerToken c ∧ c < s.nextConnId ∧ c ∉ s.connections := by
  suffices hboth : (transport W).Reachable s ∧ ∀ c handler caller,
      (c, .disconnected handler caller) ∈ s.trace →
        caller = callerToken c ∧ c < s.nextConnId ∧ c ∉ s.connections from
    hboth.2 c handler caller hmem
  refine h.invariant (I := fun s => (transport W).Reachable s ∧ ∀ c handler caller,
    (c, .disconnected handler caller) ∈ s.trace →
      caller = callerToken c ∧ c < s.nextConnId ∧ c ∉ s.connections) ?_ ?_
  · intro s hs
    refine ⟨.of_init hs, fun c handler caller hmem => ?_⟩
    rw [hs.trace] at hmem
    cases hmem
  · rintro s i t ⟨hs, hgone⟩ hst
    refine ⟨hs.step hst, fun c handler caller hmem => ?_⟩
    by_cases hq : t.loopQuiesced = false
    · obtain ⟨hcaller, hnone, hused⟩ := gone_of_disconnected (hs.step hst) hq hmem
      exact ⟨hcaller, hused, hnone⟩
    -- no handler is registered any more, so the disconnect was heard of before
    have hold : (c, .disconnected handler caller) ∈ s.trace := by
      rcases frame_step hst with ⟨-, rfl⟩ | ⟨n, p, q, -, hframe⟩
      · exact hmem
      · rw [State.loopQuiesced_of_frame hframe] at hq
        have hsevered := severed_of_quiesced hs (by simpa using hq)
        obtain ⟨new, htrace, hnew⟩ := handsOver_step hst
        rw [htrace] at hmem
        refine (List.mem_append.1 hmem).resolve_right fun hmem => ?_
        have handed : handler ∈ s.disconnectHandlers := hnew _ hmem
        rw [hsevered.handlers] at handed
        cases handed
    obtain ⟨hcaller, hused, hnone⟩ := hgone c handler caller hold
    exact ⟨hcaller, Nat.lt_of_lt_of_le hused (nextConnId_step hst), gone_step hst hused hnone⟩

end Transport

end LibreDarwin
