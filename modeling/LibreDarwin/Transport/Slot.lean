import Mathlib
import LibreDarwin.Transport.Model.Slot

/-!
# A step of the loop is a move of each connection

Every operation on the table is read here as an update of one slot, and a
broadcast as one independent update of each (`slot_broadcast`). Together
they give `slot_step`: the slots after a step are the slots before it,
each moved by its own `moveOn`.
-/

namespace LibreDarwin

namespace Transport

open Wire Std Function

variable {Req : Type*} {W : Wire Req}

namespace State

variable (s : State Req)

@[simp] theorem slot_conn (c : ConnId) : (s.slot c).conn = s.connections[c]? := rfl

@[simp] theorem slot_inbound (c : ConnId) : (s.slot c).inbound = s.inbound c := rfl

@[simp] theorem slot_seen (c : ConnId) : (s.slot c).seen = s.seen c := rfl

/-! The slots read the table, the pump and the trace, and nothing else. -/

theorem seen_log (c d : ConnId) (obs : List (Obs Req)) :
    (s.log c obs).seen d = if d = c then s.seen d ++ obs else s.seen d := by
  by_cases h : d = c
  · subst h
    simp [log, seen, partOf, List.filter_append, List.filter_map, Function.comp_def]
  · simp [log, seen, partOf, List.filter_append, List.filter_map, Function.comp_def, h, Ne.symm h]

@[simp] theorem slot_log (c : ConnId) (obs : List (Obs Req)) :
    (s.log c obs).slot = update s.slot c ((s.slot c).log obs) := by
  funext d
  by_cases h : d = c
  · subst h
    rw [update_self]
    simp only [slot, Slot.log, seen_log, if_true]
    rfl
  · rw [update_of_ne h]
    simp only [slot, seen_log, if_neg h]
    rfl

/-- Putting a connection back. -/
theorem slot_insert (c : ConnId) (conn : Connection) :
    ({ s with connections := s.connections.insert c conn } : State Req).slot =
      update s.slot c { s.slot c with conn := some conn } := by
  funext d
  by_cases h : d = c
  · subst h
    simp [slot, inbound, seen]
  · rw [update_of_ne h]
    have : ¬ c = d := fun h' => h h'.symm
    simp [slot, inbound, seen, ExtTreeMap.getElem?_insert, this]

theorem slot_erase (c : ConnId) :
    ({ s with connections := s.connections.erase c } : State Req).slot =
      update s.slot c { s.slot c with conn := none } := by
  funext d
  by_cases h : d = c
  · subst h
    simp [slot, inbound, seen]
  · rw [update_of_ne h]
    have : ¬ c = d := fun h' => h h'.symm
    simp [slot, inbound, seen, ExtTreeMap.getElem?_erase, this]

@[simp] theorem slot_closeConnection (c : ConnId) (why : CloseReason) :
    (s.closeConnection c why).slot =
      update s.slot c ((s.slot c).close s.disconnectHandlers why) := by
  unfold closeConnection Slot.close
  cases h : s.connections[c]? with
  | none => simp only [slot_conn, h, update_eq_self]
  | some conn => simp only [slot_log, slot_erase, update_self, update_idem, slot_conn, h]

/-! What the operations on the table leave alone: everything but the
connections and the trace. -/

/-- The state without its table and trace. -/
def frame : State Req := { s with connections := ∅, trace := [] }

@[simp] theorem frame_log (c : ConnId) (obs : List (Obs Req)) : (s.log c obs).frame = s.frame :=
  rfl

@[simp] theorem frame_closeConnection (c : ConnId) (why : CloseReason) :
    (s.closeConnection c why).frame = s.frame := by
  unfold closeConnection; split <;> rfl

@[simp] theorem frame_settle (c : ConnId) (out : Outcome) : (s.settle c out).frame = s.frame := by
  unfold settle
  cases out.conn with
  | ok conn => rfl
  | error why => exact frame_closeConnection _ c why

@[simp] theorem frame_sendTo (kernel : List IoResult) (c : ConnId) (m : Message) (fds : List Fd) :
    (s.sendTo W kernel c m fds).frame = s.frame := by
  unfold sendTo
  split
  · rfl
  · rw [frame_settle, frame_log]

@[simp] theorem frame_sendThenClose (kernel : List IoResult) (c : ConnId) (m : Message) :
    (s.sendThenClose W kernel c m).frame = s.frame := by
  unfold sendThenClose
  split
  · rfl
  · rw [frame_sendTo, frame_log]; rfl

@[simp] theorem frame_setWantsPresenceEvents (c : ConnId) (wants : Bool) :
    (s.setWantsPresenceEvents c wants).frame = s.frame := by
  unfold setWantsPresenceEvents; split <;> rfl

theorem disconnectHandlers_of_frame {s t : State Req} (h : t.frame = s.frame) :
    t.disconnectHandlers = s.disconnectHandlers := by
  have := congrArg State.disconnectHandlers h
  exact this

@[simp] theorem slot_settle (c : ConnId) (out : Outcome) :
    (s.settle c out).slot = update s.slot c ((s.slot c).settle s.disconnectHandlers out) := by
  unfold settle Slot.settle
  cases out.conn with
  | ok conn => simp only [slot_insert, slot_log, update_self, update_idem]
  | error why =>
    simp only [slot_closeConnection, slot_log, update_self, update_idem, disconnectHandlers_of_frame (frame_log _ _ _)]

@[simp] theorem slot_sendTo (kernel : List IoResult) (c : ConnId) (m : Message) (fds : List Fd) :
    (s.sendTo W kernel c m fds).slot =
      update s.slot c ((s.slot c).send W s.disconnectHandlers kernel m fds) := by
  unfold sendTo Slot.send
  cases h : s.connections[c]? with
  | none => simp only [slot_conn, h, update_eq_self]
  | some conn =>
    simp only [slot_settle, slot_log, update_self, update_idem, disconnectHandlers_of_frame (frame_log _ _ _),
      slot_conn, h]

@[simp] theorem slot_sendThenClose (kernel : List IoResult) (c : ConnId) (m : Message) :
    (s.sendThenClose W kernel c m).slot =
      update s.slot c ((s.slot c).sendThenClose W s.disconnectHandlers kernel m) := by
  unfold sendThenClose Slot.sendThenClose
  cases h : s.connections[c]? with
  | none => simp only [slot_conn, h, update_eq_self]
  | some conn =>
    simp only [slot_sendTo, slot_log, slot_insert, update_self, update_idem,
      disconnectHandlers_of_frame (frame_log _ _ _), slot_conn, h]

@[simp] theorem slot_setWantsPresenceEvents (c : ConnId) (wants : Bool) :
    (s.setWantsPresenceEvents c wants).slot = update s.slot c ((s.slot c).wants wants) := by
  unfold setWantsPresenceEvents Slot.wants
  cases h : s.connections[c]? with
  | none =>
    have : ({ s.slot c with conn := none } : Slot Req) = s.slot c := by
      rw [← h]; rfl
    simp only [slot_conn, h, Option.map_none, this, update_eq_self]
  | some conn => simp only [slot_insert, slot_conn, h, Option.map_some]

/-! A broadcast is one send to each taker, and each taker is one. -/

theorem mem_takers {c : ConnId} {kind : EventKind} :
    c ∈ s.takers kind ↔ (s.slot c).Takes kind := by
  simp only [takers, Slot.Takes, slot_conn, List.mem_map, List.mem_filter, Prod.exists, decide_eq_true_eq,
    ExtTreeMap.mem_toList_iff_getElem?_eq_some, Option.mem_def]
  constructor
  · rintro ⟨d, conn, ⟨h, htakes⟩, rfl⟩
    exact ⟨conn, h, htakes⟩
  · rintro ⟨conn, h, htakes⟩
    exact ⟨c, conn, ⟨h, htakes⟩, rfl⟩

theorem nodup_takers (kind : EventKind) : (s.takers kind).Nodup := by
  have hkeys : (s.connections.toList.map Prod.fst).Nodup := by
    rw [ExtTreeMap.map_fst_toList_eq_keys]
    exact ExtTreeMap.distinct_keys.imp fun {a b} hab heq => by subst heq; simp at hab
  exact hkeys.sublist (List.filter_sublist.map _)

/-- Sends to distinct connections are independent. -/
theorem foldl_sendTo (kernel : ConnId → List IoResult) (m : Message) (fds : List Fd)
    {ids : List ConnId} (hids : ids.Nodup) :
    (ids.foldl (fun s c => s.sendTo W (kernel c) c m fds) s).frame = s.frame ∧
      ∀ c, (ids.foldl (fun s c => s.sendTo W (kernel c) c m fds) s).slot c =
        if c ∈ ids then (s.slot c).send W s.disconnectHandlers (kernel c) m fds
        else s.slot c := by
  induction ids generalizing s with
  | nil => exact ⟨rfl, fun c => rfl⟩
  | cons d ids ih =>
    obtain ⟨hd, hids⟩ := List.nodup_cons.1 hids
    obtain ⟨hframe, hslot⟩ := ih (s.sendTo W (kernel d) d m fds) hids
    refine ⟨by rw [List.foldl_cons, hframe, frame_sendTo], fun c => ?_⟩
    rw [List.foldl_cons, hslot, slot_sendTo,
      disconnectHandlers_of_frame (frame_sendTo s (kernel d) d m fds)]
    by_cases hc : c = d
    · subst hc
      simp [hd]
    · simp [hc]

@[simp] theorem frame_broadcast (kernel : ConnId → List IoResult) (e : Event)
    (kind : EventKind) : (s.broadcast W kernel e kind).frame = s.frame :=
  (s.foldl_sendTo kernel (.event e) [] (s.nodup_takers kind)).1

/-- **A broadcast reaches each connection on its own.** -/
theorem slot_broadcast (kernel : ConnId → List IoResult) (e : Event) (kind : EventKind)
    (c : ConnId) :
    (s.broadcast W kernel e kind).slot c =
      (s.slot c).broadcast W s.disconnectHandlers (kernel c) e kind := by
  rw [broadcast, (s.foldl_sendTo kernel (.event e) [] (s.nodup_takers kind)).2, Slot.broadcast]
  by_cases h : c ∈ s.takers kind
  · rw [if_pos h, if_pos (s.mem_takers.1 h)]
  · rw [if_neg h, if_neg fun h' => h (s.mem_takers.2 h')]

/-! The events of the loop. -/

theorem slot_publish (kernel : ConnId → List IoResult) (change : Presence × Option Event)
    (c : ConnId) :
    (s.publish W kernel change).slot c =
      match change.2 with
      | none => s.slot c
      | some e => (s.slot c).broadcast W s.disconnectHandlers (kernel c) e .presence := by
  unfold publish
  cases change.2 with
  | none => rfl
  | some e => exact slot_broadcast _ kernel e .presence c

theorem slot_act (kernel : ConnId → List IoResult) (a : Action) (c : ConnId) :
    (s.act W kernel a).slot c =
      (s.slot c).move W s.disconnectHandlers (kernel c) (s.called W c a) := by
  cases a with
  | sendTo d m fds =>
    by_cases h : d = c
    · subst h; simp [act, called, Slot.move]
    · simp [act, called, Slot.move, h, Ne.symm h]
  | sendThenClose d m =>
    by_cases h : d = c
    · subst h; simp [act, called, Slot.move]
    · simp [act, called, Slot.move, h, Ne.symm h]
  | replyState d req =>
    by_cases h : d = c
    · subst h; simp [act, called, Slot.move]
    · simp [act, called, Slot.move, h, Ne.symm h]
  | setWantsPresenceEvents d wants =>
    by_cases h : d = c
    · subst h; simp [act, called, Slot.move]
    · simp [act, called, Slot.move, h, Ne.symm h]
  | broadcastConfigChanged key => exact slot_broadcast s kernel _ .agentWide c
  | broadcastQuiesced reason => exact slot_broadcast s kernel _ .agentWide c
  | presence call =>
    simp only [act, slot_publish, called]
    cases (s.presence.after W.readerInterfaceToken call).2 <;> rfl

theorem slot_acceptOne (identified : Bool) (c : ConnId) :
    (s.acceptOne identified).slot c =
      (s.slot c).move W s.disconnectHandlers [] (s.moveOn W c (.accept identified)) := by
  unfold acceptOne moveOn
  by_cases hcap : kMaxConnections ≤ s.connections.size
  · have : ¬ s.connections.size < kMaxConnections := by omega
    simp [hcap, this, Slot.move]
  have hlt : s.connections.size < kMaxConnections := by omega
  cases identified with
  | false => simp [hcap, Slot.move]
  | true =>
    have hslot := slot_insert { s with nextConnId := s.nextConnId + 1 } s.nextConnId
      (.accepted s.nextConnId)
    have hs : ({ s with nextConnId := s.nextConnId + 1 } : State Req).slot = s.slot := rfl
    rw [hs] at hslot
    simp only [hcap, if_false, if_true, slot_log, hslot, update_self, update_idem, hlt,
      and_self, and_true]
    by_cases h : s.nextConnId = c
    · subst h; simp [Slot.move]
    · simp [Slot.move, h, Ne.symm h]

/-- The pump touches the frames of the connection it reads from. -/
theorem slot_pump (p : Pumping) (h : ∀ c, c ≠ p.conn → s.inbound c = []) :
    ({ s with pump := some p } : State Req).slot =
      update s.slot p.conn { s.slot p.conn with inbound := p.frames } := by
  funext c
  by_cases hc : c = p.conn
  · subst hc
    simp [slot, inbound, seen]
  · rw [update_of_ne hc]
    have := h c hc
    simp only [slot, this, Slot.mk.injEq, true_and]
    exact ⟨if_neg fun h' => hc h'.symm, rfl⟩

theorem slot_readReady {c : ConnId} {pumped : Pumped} {t : State Req}
    (h : s.readReady c pumped = some t) (hpump : s.pump = none) (d : ConnId) :
    t.slot d = (s.slot d).move W s.disconnectHandlers [] (s.moveOn W d (.readReady c pumped)) := by
  unfold readReady at h
  cases hc : s.connections[c]? with
  | none => simp [hc] at h
  | some conn =>
    by_cases hread : conn.readSource = true
    · simp only [hc, if_pos hread, Option.some.injEq] at h
      subst h
      have hslot := fun conn' => slot_pump { s with connections := s.connections.insert c conn' }
        ⟨c, conn.caller, pumped.frames, pumped.ok, false⟩ (by simp [inbound, hpump])
      simp only [slot_insert, update_self, update_idem] at hslot
      simp only [slot_log, hslot, update_self, update_idem, moveOn]
      by_cases hd : c = d
      · subst hd
        simp [Slot.move, Slot.read, hc, hread]
      · simp [Slot.move, hd, Ne.symm hd]
    · simp [hc, hread] at h

theorem slot_endPump (c : ConnId) : s.endPump.slot c = (s.slot c).stop := rfl

theorem stop_of_inbound {σ : Slot Req} (h : σ.inbound = []) : σ.stop = σ := by
  rw [Slot.stop, ← h]

theorem slot_turn {p : Pumping} (hp : s.pump = some p) :
    (s.turn W p).slot = update s.slot p.conn
      ((s.slot p.conn).move W s.disconnectHandlers [] (s.turnMove W p)) := by
  have hother : ∀ d, d ≠ p.conn → s.inbound d = [] := by
    intro d hd
    simp [inbound, hp, Ne.symm hd]
  have hstop : s.endPump.slot = update s.slot p.conn (s.slot p.conn).stop := by
    funext d
    by_cases hd : d = p.conn
    · subst hd; rw [update_self, slot_endPump]
    · rw [update_of_ne hd, slot_endPump, stop_of_inbound (hother d hd)]
  have hends : s.endPump.disconnectHandlers = s.disconnectHandlers := rfl
  unfold turn turnMove
  cases hf : p.frames with
  | nil =>
    cases p.ok with
    | true => simpa [Slot.move] using hstop
    | false => simp [Slot.move, hstop, hends]
  | cons frame frames =>
    dsimp only
    cases hreq : W.parseRequest frame.body with
    | none => simp [Slot.move, hstop, hends]
    | some req =>
      simp only [Slot.move, Slot.serve, slot_conn]
      cases hl : s.connections[p.conn]? with
      | none => exact hstop
      | some live =>
        by_cases hclose : live.closeWhenDrained = true
        · simpa [hclose] using hstop
        · have hin : s.inbound p.conn = frame :: frames := by simp [inbound, hp, hf]
          have := slot_pump s { p with frames := frames, serving := s.sink } hother
          simp [hclose, this, hin, hl]

theorem slot_nextFrame {t : State Req} (h : s.nextFrame W = some t) (c : ConnId) :
    t.slot c = (s.slot c).move W s.disconnectHandlers [] (s.moveOn W c .nextFrame) := by
  obtain ⟨p, hp, rfl⟩ := Option.map_eq_some_iff.1 h
  rw [slot_turn s hp, moveOn, hp]
  by_cases hc : p.conn = c
  · subst hc; simp
  · simp [hc, Ne.symm hc, Slot.move]

theorem slot_writeReady {kernel : List IoResult} {c : ConnId} {t : State Req}
    (h : s.writeReady W kernel c = some t) (d : ConnId) :
    t.slot d = (s.slot d).move W s.disconnectHandlers kernel (s.moveOn W d (.writeReady c)) := by
  unfold writeReady at h
  cases hc : s.connections[c]? with
  | none => simp [hc] at h
  | some conn =>
    by_cases hw : conn.writeSource = true
    · simp only [hc, if_pos hw, Option.some.injEq] at h
      subst h
      by_cases hd : c = d
      · subst hd
        simp [moveOn, Slot.move, Slot.writeReady, hc, hw]
      · simp [moveOn, Slot.move, hd, Ne.symm hd]
    · simp [hc, hw] at h

theorem slot_firstFrameTimeout {c : ConnId} {t : State Req}
    (h : s.firstFrameTimeout c = some t) (d : ConnId) :
    t.slot d = (s.slot d).move W s.disconnectHandlers [] (s.moveOn W d (.firstFrameTimeout c)) := by
  unfold firstFrameTimeout at h
  cases hc : s.connections[c]? with
  | none => simp [hc] at h
  | some conn =>
    by_cases ht : conn.firstFrameTimer = true
    · simp only [hc, if_pos ht, Option.some.injEq] at h
      subst h
      by_cases hsaw : conn.sawFirstFrame = true
      · by_cases hd : c = d
        · subst hd
          simp [moveOn, Slot.move, Slot.timeout, hc, ht, hsaw]
        · simp [moveOn, Slot.move, hd, hsaw]
      · by_cases hd : c = d
        · subst hd
          simp [moveOn, Slot.move, Slot.timeout, hc, ht, hsaw]
        · simp [moveOn, Slot.move, hd, Ne.symm hd, hsaw]
    · simp [hc, ht] at h

/-- A turn of the loop asks the kernel nothing. -/
theorem turnMove_kernel {σ : Slot Req} {handlers : List HandlerId} (k : List IoResult)
    (p : Pumping) :
    σ.move W handlers k (s.turnMove W p) = σ.move W handlers [] (s.turnMove W p) := by
  unfold turnMove
  split
  · split <;> rfl
  · split <;> rfl

end State

/-- Which operation an event runs, and when it can come: an event of
another source waits until the pump is done. -/
theorem step_spec {s t : State Req} {event : LoopEvent} {kernel : ConnId → List IoResult}
    (h : s.step W ⟨event, kernel⟩ = some t) :
    match event with
    | .accept identified => s.pump = none ∧ t = s.acceptOne identified
    | .readReady c pumped => s.pump = none ∧ s.readReady c pumped = some t
    | .nextFrame => s.nextFrame W = some t
    | .act a => s.CanAct ∧ t = s.act W kernel a
    | .writeReady c => s.pump = none ∧ s.writeReady W (kernel c) c = some t
    | .firstFrameTimeout c => s.pump = none ∧ s.firstFrameTimeout c = some t
    | .quiesceLoop => s.pump = none ∧ t = s.quiesceLoop := by
  unfold State.step at h
  cases event with
  | nextFrame => exact h
  | act a =>
    dsimp only at h
    split_ifs at h with hcan
    exact ⟨hcan, (Option.some.inj h).symm⟩
  | _ =>
    cases hp : s.pump with
    | some p => simp [hp] at h
    | none => simpa [hp, eq_comm] using h

/-- **A step of the loop moves every connection by its own move.** -/
theorem slot_step {s t : State Req} {i : Input} (h : s.step W i = some t) (c : ConnId) :
    t.slot c =
      (s.slot c).move W s.disconnectHandlers (i.kernel c) (s.moveOn W c i.event) := by
  obtain ⟨event, kernel⟩ := i
  have hspec := step_spec h
  cases event with
  | nextFrame =>
    rw [State.slot_nextFrame s hspec c, State.moveOn]
    cases s.pump with
    | none => rfl
    | some p =>
      by_cases hc : p.conn = c
      · simp only [hc, if_true, State.turnMove_kernel s (kernel c) p]
      · simp only [hc, if_false]; rfl
  | act a =>
    obtain ⟨-, rfl⟩ := hspec
    exact State.slot_act s kernel a c
  | accept identified =>
    obtain ⟨-, rfl⟩ := hspec
    rw [State.slot_acceptOne (W := W), State.moveOn]
    split <;> rfl
  | readReady d pumped =>
    rw [State.slot_readReady (W := W) s hspec.2 hspec.1 c, State.moveOn]
    split <;> rfl
  | writeReady d =>
    rw [State.slot_writeReady s hspec.2 c, State.moveOn]
    by_cases hd : d = c
    · subst hd; rfl
    · simp only [hd, if_false]; rfl
  | firstFrameTimeout d =>
    rw [State.slot_firstFrameTimeout (W := W) s hspec.2 c, State.moveOn]
    split <;> rfl
  | quiesceLoop =>
    obtain ⟨-, rfl⟩ := hspec
    rfl

end Transport

end LibreDarwin
