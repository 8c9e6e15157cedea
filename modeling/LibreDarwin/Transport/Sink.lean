import LibreDarwin.Transport.Delivery

/-!
# What a step hands over

The request sink and the disconnect handlers are called from inside a step
of the loop. The trace only grows, by what the sink and the handlers that
are registered allow (`handsOver_step`), so what a step called is what the
trace has since: a request comes from a connection that is still open,
under its own token (`request_since`), and a disconnect is about one that
is gone for good (`gone_of_disconnected`).
-/

namespace LibreDarwin

namespace Transport

open Wire
open Std (ExtTreeMap)

variable {Req : Type*} {W : Wire Req}

/-- What an entry of the trace takes: a request takes a sink, and a
disconnect a handler that is registered. -/
def Obs.Handed (s : State Req) : Obs Req → Prop
  | .request _ _ _ => s.sink = true
  | .disconnected handler _ => handler ∈ s.disconnectHandlers
  | _ => True

/-- The trace of `t` is that of `s`, and then what the sink and the
handlers of `s` allow. -/
def HandsOver (s t : State Req) : Prop :=
  ∃ new, t.trace = s.trace ++ new ∧ ∀ e ∈ new, e.2.Handed s

namespace HandsOver

variable {s t u : State Req}

theorem same (h : t.trace = s.trace) : HandsOver s t := ⟨[], by simp [h], by simp⟩

theorem trans (h : HandsOver s t) (hframe : t.frame = s.frame) (h' : HandsOver t u) :
    HandsOver s u := by
  obtain ⟨new, ht, hnew⟩ := h
  obtain ⟨new', hu, hnew'⟩ := h'
  refine ⟨new ++ new', by rw [hu, ht, List.append_assoc], fun e he => ?_⟩
  rcases List.mem_append.1 he with he | he
  · exact hnew e he
  · have handed := hnew' e he
    unfold Obs.Handed at handed ⊢
    rwa [State.sink_of_frame hframe, State.disconnectHandlers_of_frame hframe] at handed

end HandsOver

namespace State

variable (s : State Req)

theorem hands_log (c : ConnId) {obs : List (Obs Req)} (h : ∀ o ∈ obs, o.Handed s) :
    HandsOver s (s.log c obs) := by
  refine ⟨obs.map fun o => (c, o), rfl, fun e he => ?_⟩
  obtain ⟨o, ho, rfl⟩ := List.mem_map.1 he
  exact h o ho

theorem hands_closeConnection (c : ConnId) (why : CloseReason) :
    HandsOver s (s.closeConnection c why) := by
  unfold closeConnection
  split
  · exact .same rfl
  next conn _ =>
    refine (HandsOver.same rfl).trans rfl (hands_log _ c fun o ho => ?_)
    simp only [farewell, List.mem_cons, List.mem_map] at ho
    rcases ho with rfl | ⟨handler, hmem, rfl⟩
    · trivial
    · exact hmem

theorem hands_settle (c : ConnId) (out : Outcome) : HandsOver s (s.settle c out) := by
  have hlog : HandsOver s (s.log c (out.io.map .io)) := s.hands_log c fun o ho => by
    obtain ⟨io, -, rfl⟩ := List.mem_map.1 ho
    trivial
  unfold settle
  cases out.conn with
  | ok conn => exact hlog.trans (frame_log _ _ _) (.same rfl)
  | error why => exact hlog.trans (frame_log _ _ _) (hands_closeConnection _ c why)

theorem hands_sendTo (kernel : List IoResult) (c : ConnId) (m : Message) (fds : List Fd) :
    HandsOver s (s.sendTo W kernel c m fds) := by
  unfold sendTo
  split
  · exact .same rfl
  · have hlog : HandsOver s (s.log c [.enqueued m (frameOf W m fds)]) :=
      s.hands_log c fun o ho => by obtain rfl := List.mem_singleton.1 ho; trivial
    exact hlog.trans (frame_log _ _ _) (hands_settle _ c _)

theorem hands_broadcast (kernel : ConnId → List IoResult) (e : Event) (kind : EventKind) :
    HandsOver s (s.broadcast W kernel e kind) := by
  unfold broadcast
  generalize s.takers kind = cs
  induction cs generalizing s with
  | nil => exact .same rfl
  | cons c cs ih =>
    have hsent := s.hands_sendTo (W := W) (kernel c) c (.event e) []
    exact hsent.trans (frame_sendTo _ _ _ _ _) (ih _)

theorem hands_act (kernel : ConnId → List IoResult) (a : Action) :
    HandsOver s (s.act W kernel a) := by
  cases a with
  | sendTo c m fds => exact s.hands_sendTo (kernel c) c m fds
  | sendThenClose c m =>
    simp only [act, sendThenClose]
    cases s.connections[c]? with
    | none => exact .same rfl
    | some conn =>
      have hlog : HandsOver s
          (({ s with connections := s.connections.insert c conn.closing } : State Req).log c
            [.lastFrame]) :=
        (HandsOver.same rfl).trans rfl (hands_log _ c fun o ho => by
          obtain rfl := List.mem_singleton.1 ho; trivial)
      exact hlog.trans rfl (hands_sendTo _ (kernel c) c m [])
  | replyState c req => exact s.hands_sendTo (kernel c) c _ []
  | setWantsPresenceEvents c wants =>
    simp only [act, setWantsPresenceEvents]
    split <;> exact .same rfl
  | broadcastConfigChanged key => exact s.hands_broadcast kernel _ .agentWide
  | broadcastQuiesced reason => exact s.hands_broadcast kernel _ .agentWide
  | presence call =>
    simp only [act, publish]
    generalize s.presence.after W.readerInterfaceToken call = change
    obtain ⟨presence, event⟩ := change
    cases event with
    | none => exact .same rfl
    | some e =>
      have hbroadcast :=
        ({ s with presence := presence } : State Req).hands_broadcast (W := W) kernel e .presence
      exact hbroadcast

theorem hands_turn (p : Pumping) : HandsOver s (s.turn W p) := by
  have hend : HandsOver s s.endPump := .same rfl
  unfold turn
  cases p.frames with
  | nil =>
    dsimp only
    split_ifs
    · exact hend
    · exact hands_closeConnection s.endPump p.conn .pumpEnded
  | cons frame frames =>
    dsimp only
    cases W.parseRequest frame.body with
    | none => exact hands_closeConnection s.endPump p.conn .malformed
    | some req =>
      dsimp only
      split
      · exact hend
      · split
        · exact hend
        · refine hands_log _ p.conn fun o ho => ?_
          split at ho
          next hsink =>
            obtain rfl := List.mem_singleton.1 ho
            exact hsink
          · cases ho

end State

/-- **What a step adds to the trace**, its sink and its handlers allow. -/
theorem handsOver_step {s t : State Req} {i : Input} (h : s.step W i = some t) :
    HandsOver s t := by
  obtain ⟨event, kernel⟩ := i
  have hspec := step_spec h
  cases event with
  | accept identified =>
    obtain ⟨-, rfl⟩ := hspec
    unfold State.acceptOne
    split_ifs
    · exact .same rfl
    · exact State.hands_log _ _ fun o ho => by obtain rfl := List.mem_singleton.1 ho; trivial
    · exact .same rfl
  | readReady c pumped =>
    have hread := hspec.2
    unfold State.readReady at hread
    split at hread
    · cases hread
    · split at hread
      · obtain rfl := Option.some.inj hread
        refine State.hands_log _ c fun o ho => ?_
        obtain ⟨frame, -, rfl⟩ := List.mem_map.1 ho
        trivial
      · cases hread
  | nextFrame =>
    obtain ⟨p, -, rfl⟩ := Option.map_eq_some_iff.1 hspec
    exact s.hands_turn p
  | act a =>
    obtain ⟨-, rfl⟩ := hspec
    exact s.hands_act kernel a
  | writeReady c =>
    have hwrite := hspec.2
    unfold State.writeReady at hwrite
    split at hwrite
    · cases hwrite
    · split at hwrite
      · obtain rfl := Option.some.inj hwrite
        exact s.hands_settle c _
      · cases hwrite
  | firstFrameTimeout c =>
    have htimeout := hspec.2
    unfold State.firstFrameTimeout at htimeout
    split at htimeout
    · cases htimeout
    · split at htimeout
      · obtain rfl := Option.some.inj htimeout
        split
        · exact .same rfl
        · exact s.hands_closeConnection c _
      · cases htimeout
  | quiesceLoop =>
    obtain ⟨-, rfl⟩ := hspec
    exact .same rfl

/-- **The trace only grows.** -/
theorem trace_step {s t : State Req} {i : Input} (h : s.step W i = some t) :
    s.trace <+: t.trace := by
  obtain ⟨new, hnew, -⟩ := handsOver_step h
  exact ⟨new, hnew.symm⟩

theorem trace_eq_since {s t : State Req} {i : Input} (h : s.step W i = some t) :
    t.trace = s.trace ++ t.since s := by
  obtain ⟨obs, hobs⟩ := trace_step h
  rw [State.since, ← hobs, List.drop_left]

/-- What a step adds to a trace but a request it serves. -/
theorem Slot.Effect.requestsIn_eq {σ τ : Slot Req} {handlers : List HandlerId}
    {kernel : List IoResult} {m : Move Req} (h : σ.Effect W handlers kernel m τ) :
    requestsIn τ.seen = requestsIn σ.seen ∨
      ∃ caller frame req heard, m = .serve caller frame req heard ∧ σ.conn.isSome = true ∧
        τ.conn = σ.conn ∧
        requestsIn τ.seen = requestsIn σ.seen ++ [(caller, req, frame.fds)] := by
  have hsettle : ∀ (σ' : Slot Req) (out : Outcome), requestsIn σ'.seen = requestsIn σ.seen →
      requestsIn (σ'.settle handlers out).seen = requestsIn σ.seen := by
    intro σ' out hσ'
    obtain ⟨rest, hrest, hseen⟩ := Slot.seen_settle σ' handlers out
    rcases hrest with rfl | ⟨why, caller, rfl⟩ <;> simp [hseen, hσ']
  cases h with
  | same => exact .inl rfl
  | accepted id => exact .inl (by simp [requestsIn])
  | sent hconn m fds => exact .inl (hsettle _ _ (by simp))
  | broadcast hconn e kind htakes => exact .inl (hsettle _ _ (by simp))
  | sentLast hconn m =>
    have hlog : requestsIn (σ.seen ++ [.lastFrame] ++ [.enqueued m (frameOf W m [])]) =
        requestsIn σ.seen := by
      rw [requestsIn_append, requestsIn_append, requestsIn_lastFrame, requestsIn_enqueued,
        List.append_nil, List.append_nil]
    exact .inl (hsettle _ _ hlog)
  | wants hconn b => exact .inl rfl
  | flushed hconn hwrite => exact .inl (hsettle _ _ rfl)
  | read hconn hread frames => exact .inl (by simp)
  | served hconn hopen caller frame req heard =>
    cases heard with
    | false => exact .inl (by simp)
    | true => exact .inr ⟨_, _, _, _, rfl, by simp [hconn], rfl, by simp [requestsIn]⟩
  | stopped => exact .inl rfl
  | skipped hclosing caller frame req heard => exact .inl rfl
  | gone hconn why => exact .inl rfl
  | closed hconn why => exact .inl (by simp)
  | timedOut hconn hsaw => exact .inl (by simp)

/-- **A request that a step handed to the sink** is one of a connection
that is open still, under its own token. -/
theorem request_since {s t : State Req} {i : Input} (hs : Orderly s) (h : s.step W i = some t)
    {c : ConnId} {caller : CallerToken} {req : Req} {fds : List Fd}
    (hmem : (c, .request caller req fds) ∈ t.since s) :
    caller = callerToken c ∧ c ∈ t.connections := by
  have hseen : t.seen c = s.seen c ++ partOf (t.since s) c := by
    rw [State.seen, trace_eq_since h, partOf_append]
    rfl
  have hheard : (caller, req, fds) ∈ requestsIn (partOf (t.since s) c) := by
    simp only [requestsIn, List.mem_filterMap]
    exact ⟨_, mem_partOf.2 hmem, rfl⟩
  obtain ⟨m, -, hlegal, heffect⟩ := step_at hs h c
  have hrequests : requestsIn (t.slot c).seen =
      requestsIn (s.slot c).seen ++ requestsIn (partOf (t.since s) c) := by
    rw [State.slot_seen, State.slot_seen, hseen, requestsIn_append]
  rcases heffect.requestsIn_eq with hsame | ⟨caller', frame, req', heard, rfl, hconn, hkept, hone⟩
  · -- then the step added no request of the connection at all
    rw [hrequests, List.append_right_eq_self] at hsame
    rw [hsame] at hheard
    cases hheard
  · rw [hrequests] at hone
    rw [List.append_cancel_left hone, List.mem_singleton] at hheard
    have hcaller : caller' = callerToken c := hlegal.2.1
    refine ⟨(congrArg Prod.fst hheard).trans hcaller, ?_⟩
    rw [ExtTreeMap.mem_iff_isSome_getElem?, ← State.slot_conn, hkept]
    exact hconn

/-- An entry of the trace that is a request handed over. -/
def Obs.IsRequest : Obs Req → Prop
  | .request _ _ _ => True
  | _ => False

/-- A trace without requests. -/
theorem not_isRequest {seen : List (Obs Req)} (h : requestsIn seen = []) {e : Obs Req}
    (he : e ∈ seen) : ¬ e.IsRequest := by
  simp only [requestsIn, List.filterMap_eq_nil_iff] at h
  have hnone := h e he
  cases e <;> simp_all [Obs.IsRequest]

/-- Only a turn of `onReadReady` hands a request over. -/
theorem requestsIn_step {s t : State Req} {i : Input} (hs : Orderly s) (h : s.step W i = some t)
    (hevent : i.event ≠ .nextFrame) : ∀ e ∈ t.since s, ¬ e.2.IsRequest := by
  rintro ⟨c, e⟩ hmem
  have hseen : t.seen c = s.seen c ++ partOf (t.since s) c := by
    rw [State.seen, trace_eq_since h, partOf_append]
    rfl
  obtain ⟨m, horigin, hlegal, heffect⟩ := step_at hs h c
  rcases heffect.requestsIn_eq with hsame | ⟨caller, frame, req, heard, rfl, -⟩
  · rw [State.slot_seen, State.slot_seen, hseen, requestsIn_append,
      List.append_right_eq_self] at hsame
    exact not_isRequest hsame (mem_partOf.2 hmem)
  · generalize i.event = event at horigin hevent
    cases horigin
    exact absurd rfl hevent

/-- **A step hands over one request at most**, and then the sink is at
work. -/
theorem request_step {s t : State Req} {i : Input} (hs : Orderly s) (h : s.step W i = some t) :
    (∀ e ∈ t.since s, ¬ e.2.IsRequest) ∨
      ∃ p c caller req fds, t.since s = [(c, .request caller req fds)] ∧ s.sink = true ∧
        t.loopQuiesced = s.loopQuiesced ∧ t.pump = some p ∧ p.serving = true := by
  by_cases hevent : i.event = .nextFrame
  swap
  · exact .inl (requestsIn_step hs h hevent)
  obtain ⟨event, kernel⟩ := i
  obtain rfl : event = .nextFrame := hevent
  obtain ⟨p, hp, rfl⟩ := Option.map_eq_some_iff.1 (step_spec h)
  have hclose : ∀ why, ∀ e ∈ ((s.endPump).closeConnection p.conn why).since s,
      ¬ e.2.IsRequest := by
    intro why e he
    unfold State.closeConnection at he
    split at he
    · simp [State.since, State.endPump] at he
    · simp only [State.since, State.log, State.endPump, List.drop_left, List.mem_map] at he
      obtain ⟨o, ho, rfl⟩ := he
      exact not_isRequest (requestsIn_farewell _ _ _) ho
  have hend : ∀ e ∈ (s.endPump).since s, ¬ e.2.IsRequest := by
    simp [State.since, State.endPump]
  unfold State.turn
  cases p.frames with
  | nil =>
    dsimp only
    split
    · exact .inl hend
    · exact .inl (hclose .pumpEnded)
  | cons frame frames =>
    dsimp only
    cases W.parseRequest frame.body with
    | none => exact .inl (hclose .malformed)
    | some req =>
      dsimp only
      split
      · exact .inl hend
      · split
        · exact .inl hend
        · cases hsink : s.sink with
          | false => exact .inl (by simp [State.since, State.log])
          | true =>
            refine .inr ⟨_, p.conn, p.caller, req, frame.fds, ?_, rfl, rfl, rfl, rfl⟩
            simp [State.since, State.log]

/-- **A connection whose disconnect was heard of** is gone for good. -/
theorem gone_of_disconnected {s : State Req} (h : (transport W).Reachable s)
    (hq : s.loopQuiesced = false) {c : ConnId} {handler : HandlerId} {caller : CallerToken}
    (hmem : (c, .disconnected handler caller) ∈ s.trace) :
    caller = callerToken c ∧ c ∉ s.connections ∧ c < s.nextConnId := by
  obtain ⟨s₀, is, hs₀, hrun⟩ := h
  have hserved := served_of_run hs₀ hrun hq c
  have hseen : .disconnected handler caller ∈ (s.slot c).seen := mem_partOf.2 hmem
  have hnone : (s.slot c).conn = none := by
    by_contra hsome
    obtain ⟨conn, hconn⟩ := Option.ne_none_iff_exists'.1 hsome
    exact (hserved.live conn hconn).2.1 _ hseen trivial
  refine ⟨?_, ?_, ?_⟩
  · rcases hserved.gone hnone with hnil | ⟨a, why, ha, heq⟩
    · rw [hnil] at hseen
      cases hseen
    · rw [heq] at hseen
      rcases List.mem_append.1 hseen with hold | hnew
      · exact absurd trivial (ha _ hold)
      · simp only [farewell, List.mem_cons, List.mem_map, reduceCtorEq, false_or] at hnew
        obtain ⟨_, -, heq⟩ := hnew
        cases heq
        rfl
  · rw [ExtTreeMap.mem_iff_isSome_getElem?, ← State.slot_conn, hnone]
    simp
  · by_contra hge
    have hblank := (reachable_orderly ⟨s₀, is, hs₀, hrun⟩).unused c (Nat.le_of_not_lt hge)
    rw [hblank] at hseen
    cases hseen

end Transport

end LibreDarwin
