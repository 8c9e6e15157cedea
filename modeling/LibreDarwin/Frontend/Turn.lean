import LibreDarwin.Frontend.Life
import LibreDarwin.Transport.Mail

/-!
# A step of the frontend, taken apart

A step of the machine is a move of the transport, what the frontend does
with its own state (`FrontendTurn`), and the sends that end it, which move the
transport once more (`step_turn`). A move of the transport leaves the
frontend alone but for the evictions it may post (`Shifted`), and a turn
leaves the transport alone, so the invariants of this directory are proved
of the one and of the other. What the sends hand over is what the turn
wrote down as said (`saidIn`).
-/

namespace LibreDarwin

namespace Frontend

open Wire Transport Script
open Std (ExtTreeMap)

variable {V Trust : Type*} {A : Agent V Trust} {o : Outside} {s t : FrontendState V}

/-- What a deed hands to a connection. -/
def Deed.said : Deed → List (ConnId × Message)
  | .replied _ connId m _ true | .delivered _ connId m _ true =>
    (mailOf m).map fun m => (connId, m)
  | _ => []

/-- All a log says was handed over, in order. -/
def saidIn (log : List Deed) : List (ConnId × Message) := log.flatMap Deed.said

@[simp] theorem saidIn_append (a b : List Deed) : saidIn (a ++ b) = saidIn a ++ saidIn b :=
  List.flatMap_append

namespace FrontendState

variable (s : FrontendState V)

/-- The frontend's own part of the state. -/
def own : FrontendState V := { s with transport := .start [], posted := [] }

@[simp] theorem did_did (a b : List Deed) : (s.did a).did b = s.did (a ++ b) := by
  simp [did]

/-- Writing something down does not touch a call. -/
theorem did_call (a : Action) (deeds : List Deed) :
    (s.call A o a).did deeds = (s.did deeds).call A o a := by
  unfold call
  simp only [did]
  cases s.transport.step A.wire ⟨.act a, o.kernel⟩ <;> rfl

end FrontendState

/-- **A move of the transport**: the frontend's own part stays, and what is
posted are evictions of clients that are gone. -/
structure Shifted (A : Agent V Trust) (s t : FrontendState V) : Prop where
  run : ∃ is, (transport A.wire).run s.transport is = some t.transport
  own : t.own = s.own
  posted : ∃ gone : List CallerToken, t.posted = s.posted ++ gone.map .evictClient ∧
    ∀ caller ∈ gone, ∃ c, (c, .disconnected frontendHandler caller) ∈ t.transport.trace

/-- What a move of the transport adds to the mail. -/
def Mails (s t : FrontendState V) (mail : List (ConnId × Message)) : Prop :=
  ∀ c, mailIn (t.transport.seen c) = mailIn (s.transport.seen c) ++ mailFor c mail

namespace Shifted

theorem refl (s : FrontendState V) : Shifted A s s := ⟨⟨[], rfl⟩, rfl, [], by simp, by simp⟩

theorem store (h : Shifted A s t) : t.store = s.store := by
  have := congrArg FrontendState.store h.own
  exact this

theorem confirmsInFlight (h : Shifted A s t) : t.confirmsInFlight = s.confirmsInFlight := by
  have := congrArg FrontendState.confirmsInFlight h.own
  exact this

theorem opOwners (h : Shifted A s t) : t.opOwners = s.opOwners := by
  have := congrArg FrontendState.opOwners h.own
  exact this

theorem signResults (h : Shifted A s t) : t.signResults = s.signResults := by
  have := congrArg FrontendState.signResults h.own
  exact this

theorem alive (h : Shifted A s t) : t.alive = s.alive := by
  have := congrArg FrontendState.alive h.own
  exact this

theorem asks (h : Shifted A s t) : t.asks = s.asks := by
  have := congrArg FrontendState.asks h.own
  exact this

theorem brokerCalls (h : Shifted A s t) : t.brokerCalls = s.brokerCalls := by
  have := congrArg FrontendState.brokerCalls h.own
  exact this

theorem delayed (h : Shifted A s t) : t.delayed = s.delayed := by
  have := congrArg FrontendState.delayed h.own
  exact this

theorem requests (h : Shifted A s t) : t.requests = s.requests := by
  have := congrArg FrontendState.requests h.own
  exact this

theorem ops (h : Shifted A s t) : t.ops = s.ops := by
  have := congrArg FrontendState.ops h.own
  exact this

theorem log (h : Shifted A s t) : t.log = s.log := by
  have := congrArg FrontendState.log h.own
  exact this

/-- A block that is no eviction was there before. -/
theorem mem_posted (h : Shifted A s t) {block : Block} (hblock : ∀ caller, block ≠ .evictClient caller) :
    block ∈ t.posted ↔ block ∈ s.posted := by
  obtain ⟨gone, hposted, -⟩ := h.posted
  rw [hposted, List.mem_append, List.mem_map, or_iff_left]
  rintro ⟨caller, -, rfl⟩
  exact hblock caller rfl

/-- So a block at the head of the queue that is no eviction was at its
head. -/
theorem head (h : Shifted A s t) {block : Block} {rest : List Block}
    (hposted : t.posted = block :: rest) (hblock : ∀ caller, block ≠ .evictClient caller) :
    ∃ rest', s.posted = block :: rest' := by
  obtain ⟨gone, ht, -⟩ := h.posted
  rw [hposted] at ht
  cases hs : s.posted with
  | nil =>
    rw [hs, List.nil_append] at ht
    have hmem : block ∈ gone.map Block.evictClient := by
      rw [← ht]
      exact List.mem_cons_self
    obtain ⟨caller, -, rfl⟩ := List.mem_map.1 hmem
    exact absurd rfl (hblock caller)
  | cons block' rest' =>
    rw [hs, List.cons_append, List.cons.injEq] at ht
    exact ⟨rest', by rw [ht.1]⟩

theorem trans {u : FrontendState V} (h : Shifted A s t) (h' : Shifted A t u) : Shifted A s u := by
  obtain ⟨is, his⟩ := h.run
  obtain ⟨js, hjs⟩ := h'.run
  obtain ⟨gone, ht, hgone⟩ := h.posted
  obtain ⟨gone', hu, hgone'⟩ := h'.posted
  have hle : t.transport.trace <+: u.transport.trace :=
    Machine.run_invariant (I := fun v => t.transport.trace <+: v.trace)
      (fun _ _ _ hv hst => hv.trans (trace_step hst)) (List.prefix_refl _) hjs
  refine ⟨⟨is ++ js, by rw [Machine.run_append his, hjs]⟩, h'.own.trans h.own, gone ++ gone',
    by rw [hu, ht, List.map_append, List.append_assoc], fun caller hcaller => ?_⟩
  rcases List.mem_append.1 hcaller with hmem | hmem
  · obtain ⟨c, hc⟩ := hgone caller hmem
    exact ⟨c, hle.subset hc⟩
  · exact hgone' caller hmem

theorem reachable (h : Shifted A s t) (hs : (transport A.wire).Reachable s.transport) :
    (transport A.wire).Reachable t.transport := by
  obtain ⟨is, his⟩ := h.run
  exact hs.run his

theorem nextConnId_le (h : Shifted A s t) : s.transport.nextConnId ≤ t.transport.nextConnId := by
  obtain ⟨is, his⟩ := h.run
  exact Machine.run_invariant
    (I := fun v : State Envelope => s.transport.nextConnId ≤ v.nextConnId)
    (fun _ _ _ hv hst => Nat.le_trans hv (nextConnId_step hst)) (Nat.le_refl _) his

/-- A connection that is gone stays so. -/
theorem gone (h : Shifted A s t) {c : ConnId} (hused : c < s.transport.nextConnId)
    (hgone : c ∉ s.transport.connections) :
    c < t.transport.nextConnId ∧ c ∉ t.transport.connections := by
  obtain ⟨is, his⟩ := h.run
  refine Machine.run_invariant
    (I := fun v : State Envelope => c < v.nextConnId ∧ c ∉ v.connections) ?_ ⟨hused, hgone⟩ his
  rintro v i w ⟨hv, hc⟩ hst
  exact ⟨Nat.lt_of_lt_of_le hv (nextConnId_step hst), gone_step hst hv hc⟩

/-- What `quiesceLoop` stopped stays stopped. -/
theorem quiesced (h : Shifted A s t) (hq : s.transport.loopQuiesced = true) :
    t.transport.loopQuiesced = true := by
  obtain ⟨is, his⟩ := h.run
  refine Machine.run_invariant (I := fun v : State Envelope => v.loopQuiesced = true) ?_ hq his
  intro v i w hv hst
  rcases frame_step hst with ⟨-, rfl⟩ | ⟨n, p, q, -, hframe⟩
  · rfl
  · rw [State.loopQuiesced_of_frame hframe]
    exact hv

theorem going (h : Shifted A s t) (hq : t.transport.loopQuiesced = false) :
    s.transport.loopQuiesced = false := by
  by_contra hstopped
  have hstays := h.quiesced (by simpa using hstopped)
  rw [hq] at hstays
  cases hstays

end Shifted

theorem evictions_mem {obs : List (ConnId × Obs Envelope)} {caller : CallerToken}
    (h : caller ∈ evictions obs) : ∃ c, (c, .disconnected frontendHandler caller) ∈ obs := by
  simp only [evictions, List.mem_filterMap] at h
  obtain ⟨⟨c, e⟩, hmem, heq⟩ := h
  cases e <;> simp at heq
  obtain ⟨rfl, rfl⟩ := heq
  exact ⟨c, hmem⟩

/-- **The frontend takes over what a step of the transport did.** -/
theorem moved_absorb {i : Input} {t : State Envelope} (h : s.transport.step A.wire i = some t) :
    Shifted A s (s.absorb t) := by
  refine ⟨⟨[i], by simp [Machine.run_cons, transport, h, FrontendState.absorb]⟩, rfl, _, rfl, ?_⟩
  intro caller hcaller
  split at hcaller
  · obtain ⟨c, hc⟩ := evictions_mem hcaller
    exact ⟨c, List.mem_of_mem_drop hc⟩
  · cases hcaller

theorem moved_call (a : Action) : Shifted A s (s.call A o a) := by
  unfold FrontendState.call
  cases h : s.transport.step A.wire ⟨.act a, o.kernel⟩ with
  | none => exact .refl s
  | some t => exact moved_absorb h

/-- A call that may be made, and what it makes of the transport. -/
theorem call_eq (a : Action) (h : s.transport.CanAct) :
    s.call A o a = s.absorb (s.transport.act A.wire o.kernel a) := by
  simp [FrontendState.call, State.step, h]

theorem call_idle (a : Action) (h : ¬ s.transport.CanAct) : s.call A o a = s := by
  simp [FrontendState.call, State.step, h]

/-- **The mail of a call**: what it sends, if the connection is there. -/
theorem mails_call {a : Action} {c : ConnId} {m : Message}
    (ha : a.mail s.transport = (mailOf m).map fun m => (c, m)) :
    Mails s (s.call A o a) (if s.Sends c then (mailOf m).map fun m => (c, m) else []) := by
  intro d
  by_cases hcan : s.transport.CanAct
  · have hstep : s.transport.step A.wire ⟨.act a, o.kernel⟩ =
        some (s.transport.act A.wire o.kernel a) := by simp [State.step, hcan]
    rw [call_eq a hcan]
    have hmail := mail_act hstep d
    rw [ha] at hmail
    refine hmail.trans (congrArg _ ?_)
    by_cases hd : c = d
    · subst hd
      have hsends : s.Sends c ↔ c ∈ s.transport.connections := ⟨And.right, fun h => ⟨hcan, h⟩⟩
      by_cases hmem : c ∈ s.transport.connections
      · rw [if_pos hmem, if_pos (hsends.2 hmem)]
      · rw [if_neg hmem, if_neg (mt hsends.1 hmem)]
        rfl
    · rw [apply_ite (mailFor d), mailFor_map, if_neg hd, mailFor_nil, ite_self, ite_self]
  · rw [call_idle a hcan, if_neg fun h => hcan h.1]
    simp

theorem mails_sendTo (c : ConnId) (m : Message) (fds : List Fd) :
    Mails s (s.call A o (.sendTo c m fds))
      (if s.Sends c then (mailOf m).map fun m => (c, m) else []) := mails_call rfl

/-- A call that sends nothing by name. -/
theorem mails_quiet {a : Action} (ha : a.mail s.transport = []) : Mails s (s.call A o a) [] := by
  intro d
  by_cases hcan : s.transport.CanAct
  · have hstep : s.transport.step A.wire ⟨.act a, o.kernel⟩ =
        some (s.transport.act A.wire o.kernel a) := by simp [State.step, hcan]
    rw [call_eq a hcan]
    have hmail := mail_act hstep d
    rw [ha] at hmail
    refine hmail.trans (congrArg _ ?_)
    split <;> rfl
  · rw [call_idle a hcan]
    simp

theorem Mails.trans {u : FrontendState V} {a b : List (ConnId × Message)} (h : Mails s t a)
    (h' : Mails t u b) : Mails s u (a ++ b) := by
  intro c
  rw [h' c, h c, mailFor_append, List.append_assoc]

theorem Mails.refl (s : FrontendState V) : Mails s s [] := by
  intro c
  simp

/-! ## What a worker's emissions come to -/

/-- What a list of emissions posts, and the operation after it: nothing
follows what finishes it. -/
def emitAll (anonFdFromBytes : Bytes → Option Fd) (op : OpId) (x : Operation) :
    List Emission → List Block × Operation
  | [] => ([], x)
  | e :: es =>
    if x.finished then ([], x)
    else
      let rest := emitAll anonFdFromBytes op { x with finished := e.IsFinished } es
      (emissionBlocks anonFdFromBytes op x e ++ rest.1, rest.2)

/-- The frontend after an operation's emissions. -/
def FrontendState.emitted (s : FrontendState V) (op : OpId) (out : List Block × Operation) :
    FrontendState V :=
  { s with posted := s.posted ++ out.1
           ops := Function.update s.ops op (some out.2) }.did (emittedDeeds op out.1)

theorem emittedDeeds_append (op : OpId) (a b : List Block) :
    emittedDeeds op (a ++ b) = emittedDeeds op a ++ emittedDeeds op b := List.filterMap_append

theorem emitted_nil {op : OpId} {x : Operation} (hx : s.ops op = some x) :
    s.emitted op ([], x) = s := by
  simp [FrontendState.emitted, FrontendState.did, emittedDeeds, ← hx]

/-- **Emissions in a row.** -/
theorem foldl_emit {anonFdFromBytes : Bytes → Option Fd} {op : OpId} {x : Operation}
    (hx : s.ops op = some x) (es : List Emission) :
    es.foldl (fun s e => s.emit anonFdFromBytes op e) s =
      s.emitted op (emitAll anonFdFromBytes op x es) := by
  induction es generalizing s x with
  | nil => exact (emitted_nil hx).symm
  | cons e es ih =>
    rw [List.foldl_cons]
    cases hfinished : x.finished with
    | true =>
      have hsame : s.emit anonFdFromBytes op e = s := by
        simp [FrontendState.emit, hx, hfinished]
      rw [hsame, ih hx]
      cases es <;> simp [emitAll, hfinished]
    | false =>
      have hemit : s.emit anonFdFromBytes op e =
          s.emitted op (emissionBlocks anonFdFromBytes op x e,
            { x with finished := e.IsFinished }) := by
        simp [FrontendState.emit, hx, hfinished, FrontendState.emitted]
      rw [hemit, ih (x := { x with finished := e.IsFinished })]
      · simp [emitAll, hfinished, FrontendState.emitted, FrontendState.did, emittedDeeds_append]
      · simp [FrontendState.emitted, FrontendState.did]

/-! ## Turns -/

/-- A request at the sink: there is a frontend, and its connection is
there. -/
structure Arrives (s : FrontendState V) (i : Inbound) : Prop where
  alive : s.alive = true
  sends : s.Sends i.connId
  caller : i.caller = callerToken i.connId

/-- The frontend after a handler's script. -/
def FrontendState.handled (A : Agent V Trust) (o : Outside) (s : FrontendState V) (i : Inbound) :
    FrontendState V :=
  { s with requests := s.requests ++ [i] }.did (handle A o s s.requests.length i).log

/-- What a dispatch that ends at once replies, and what goes with it. -/
inductive Says (A : Agent V Trust) (o : Outside) (s : FrontendState V) (i : Inbound) :
    Message → Option (OpId × Bytes) → Prop
  | refused {code : SyncError} (h : (handle A o s s.requests.length i).result = .error code) :
      Says A o s i (syncErrorReply i.request.req code) none
  | reply {m : Message} {fds : List Fd} {carries : Option (OpId × Bytes)}
      (h : (handle A o s s.requests.length i).result = .ok (.reply m fds carries)) :
      Says A o s i m carries
  | sendThenClose {m : Message}
      (h : (handle A o s s.requests.length i).result = .ok (.sendThenClose m)) :
      Says A o s i m none
  | hello {wantsEvents : Bool} {ack : Message}
      (h : (handle A o s s.requests.length i).result = .ok (.hello wantsEvents ack)) :
      Says A o s i ack none
  | notLaunched {target : OperationTarget} {spec : LaunchSpec} {onSignArtifact : Bool}
      {code : SyncError}
      (h : (handle A o s s.requests.length i).result = .ok (.launch target spec onSignArtifact))
      (hlaunched : o.launched = .error code) :
      Says A o s i (syncErrorReply i.request.req code) none
  | notAsked {x : Apply} {code : SyncError}
      (h : (handle A o s s.requests.length i).result = .ok (.confirm x)) :
      Says A o s i (syncErrorReply i.request.req code) none

/-- **What the frontend does with its own state** in one step. `n` is the
number the request gets, and `rest` what is posted behind the block that
runs. -/
inductive FrontendTurn (A : Agent V Trust) (s : FrontendState V) :
    FrontendInput → FrontendState V → Prop
  | idle (input : FrontendInput) : FrontendTurn A s input s
  | replied {event : Input} {o : Outside} {i : Inbound} (hi : Arrives s i) {m : Message}
      {carries : Option (OpId × Bytes)} (hsaying : Says A o s i m carries) :
      FrontendTurn A s (.loop event o)
        ((s.handled A o i).did [.replied s.requests.length i.connId m carries true])
  | changed {event : Input} {o : Outside} {i : Inbound} (hi : Arrives s i) {x : Apply}
      (h : (handle A o s s.requests.length i).result = .ok (.apply x)) :
      FrontendTurn A s (.loop event o)
        ({ s.handled A o i with store := (x.run A o i.request.req s.store).store }.did
          [.applied s.requests.length i.connId i.request.req false
              (x.run A o i.request.req s.store).effects,
            .replied s.requests.length i.connId (x.run A o i.request.req s.store).reply none true])
  | launched {event : Input} {o : Outside} {i : Inbound} (hi : Arrives s i)
      {target : OperationTarget} {spec : LaunchSpec} {onSignArtifact : Bool}
      (h : (handle A o s s.requests.length i).result = .ok (.launch target spec onSignArtifact))
      {op : OpId} {early : List Emission} (hlaunched : o.launched = .ok (op, early))
      (hfresh : s.ops op = none) :
      FrontendTurn A s (.loop event o)
        ({ ((s.handled A o i).did [.launched s.requests.length op target spec]).emitted op
              (emitAll o.anonFdFromBytes op
                ⟨s.requests.length, i.connId, i.caller, onSignArtifact, false⟩ early) with
            opOwners := Function.update s.opOwners op (some i.caller) }.did
          [.replied s.requests.length i.connId (.opStarted i.request.req op) none true])
  | asked {event : Input} {o : Outside} {i : Inbound} (hi : Arrives s i) {x : Apply}
      (h : (handle A o s s.requests.length i).result = .ok (.confirm x)) {copy : TrustChangeCopy}
      (hcopy : describeTrustChange x.key x.what = some copy)
      (hfree : i.caller ∉ s.confirmsInFlight) :
      FrontendTurn A s (.loop event o)
        ({ s.handled A o i with
            confirmsInFlight := i.caller :: s.confirmsInFlight
            asks := s.asks ++ [Ask.mk s.requests.length i.connId i.request.req i.caller
              (confirmAction copy (o.requesterLabel i.caller) x.key) x] }.did
          [.asked s.requests.length i.connId i.request.req x.key])
  | brokered {event : Input} {o : Outside} {i : Inbound} (hi : Arrives s i) {reader : Handle}
      {verb : BrokerVerb}
      (h : (handle A o s s.requests.length i).result = .ok (.broker reader verb)) :
      FrontendTurn A s (.loop event o)
        ({ s.handled A o i with
            brokerCalls := s.brokerCalls ++ [BrokerCall.mk s.requests.length i.connId i.request.req
              reader verb i.caller (o.requesterLabel i.caller)] }.did
          [.brokered s.requests.length verb])
  | answer {idx : ℕ} {verdict : PromptReplyStatus} {ask : Ask} (hask : s.asks[idx]? = some ask) :
      FrontendTurn A s (.answer idx verdict)
        ({ s with asks := s.asks.eraseIdx idx
                  posted := s.posted ++ if s.alive then [Block.answered ask verdict] else [] }.did
          [.answered ask.n verdict])
  | emit {op : OpId} {x : Operation} (hx : s.ops op = some x) (e : Emission)
      (anonFdFromBytes : Bytes → Option Fd) :
      FrontendTurn A s (.emit op e anonFdFromBytes) (s.emitted op (emitAll anonFdFromBytes op x [e]))
  | broker {idx : ℕ} {result : Except SyncError BrokerResult} {call : BrokerCall}
      (hcall : s.brokerCalls[idx]? = some call) :
      FrontendTurn A s (.broker idx result)
        { s with brokerCalls := s.brokerCalls.eraseIdx idx
                 posted := s.posted ++
                   [.reply call.n call.connId (FrontendState.brokerReply call.req result)] }
  | due {idx : ℕ} {op : OpId} (hop : s.delayed[idx]? = some op) :
      FrontendTurn A s (.due idx)
        { s with delayed := s.delayed.eraseIdx idx
                 posted := s.posted ++ [.evictSignResult op] }
  | dropped {o : Outside} {block : Block} {rest : List Block} (hposted : s.posted = block :: rest)
      (hwhy : s.transport.loopQuiesced = true ∨
        s.alive = false ∧ (∀ n c m, block ≠ .reply n c m) ∧
          ∀ op c m fds carries, block ≠ .event op c m fds carries) :
      FrontendTurn A s (.run o) { s with posted := rest }
  | reply {o : Outside} {n : ℕ} {connId : ConnId} {m : Message} {rest : List Block}
      (hposted : s.posted = .reply n connId m :: rest) (hcan : s.transport.CanAct) :
      FrontendTurn A s (.run o)
        ({ s with posted := rest }.did [.replied n connId m none (s.Sends connId)])
  | event {o : Outside} {op : OpId} {connId : ConnId} {m : Message} {fds : List Fd}
      {carries : List Bytes} {rest : List Block}
      (hposted : s.posted = .event op connId m fds carries :: rest) (hcan : s.transport.CanAct) :
      FrontendTurn A s (.run o)
        ({ s with posted := rest }.did [.delivered op connId m carries (s.Sends connId)])
  | confirmed {o : Outside} {ask : Ask} {rest : List Block}
      (hposted : s.posted = .answered ask .ok :: rest) (hcan : s.transport.CanAct)
      (halive : s.alive = true) :
      FrontendTurn A s (.run o)
        ({ s with posted := rest
                  confirmsInFlight := s.confirmsInFlight.filter fun c => c ≠ ask.caller
                  store := (ask.apply.run A o ask.req s.store).store }.did
          [.applied ask.n ask.connId ask.req true (ask.apply.run A o ask.req s.store).effects,
            .replied ask.n ask.connId (ask.apply.run A o ask.req s.store).reply none
              (s.Sends ask.connId)])
  | declined {o : Outside} {ask : Ask} {verdict : PromptReplyStatus} {rest : List Block}
      (hposted : s.posted = .answered ask verdict :: rest) (hcan : s.transport.CanAct)
      (halive : s.alive = true) (hverdict : verdict ≠ .ok) :
      FrontendTurn A s (.run o)
        ({ s with posted := rest
                  confirmsInFlight := s.confirmsInFlight.filter fun c => c ≠ ask.caller }.did
          [.replied ask.n ask.connId (syncErrorReply ask.req .notAuthorized) none
            (s.Sends ask.connId)])
  | stashed {o : Outside} {op : OpId} {owner : CallerToken} {artifact : SignedArtifact}
      {rest : List Block} (hposted : s.posted = .stash op owner artifact :: rest)
      (hcan : s.transport.CanAct) (halive : s.alive = true) :
      FrontendTurn A s (.run o) ({ s with posted := rest }.stashSignArtifact op owner artifact)
  | pruned {o : Outside} {op : OpId} {rest : List Block} (hposted : s.posted = .prune op :: rest)
      (hcan : s.transport.CanAct) (halive : s.alive = true) :
      FrontendTurn A s (.run o) ({ s with posted := rest }.prune op)
  | expired {o : Outside} {op : OpId} {rest : List Block}
      (hposted : s.posted = .evictSignResult op :: rest) (hcan : s.transport.CanAct)
      (halive : s.alive = true) :
      FrontendTurn A s (.run o) ({ s with posted := rest }.evictSignResult op)
  | evicted {o : Outside} {caller : CallerToken} {rest : List Block}
      (hposted : s.posted = .evictClient caller :: rest) (hcan : s.transport.CanAct)
      (halive : s.alive = true) :
      FrontendTurn A s (.run o) ({ s with posted := rest }.evictClient caller)
  | destroy : FrontendTurn A s .destroy { s with alive := false }

/-! ## A step is a turn between moves of the transport -/

/-- What a turn says it handed over, the transport is then asked to. -/
structure Ends (A : Agent V Trust) (s s' t : FrontendState V) : Prop where
  moved : Shifted A s' t
  mails : ∃ mail, Mails s' t mail ∧ saidIn s'.log = saidIn s.log ++ mail

/-- A turn that says nothing ends where it is. -/
theorem Ends.quiet {s' : FrontendState V} (h : saidIn s'.log = saidIn s.log) : Ends A s s' s' :=
  ⟨.refl s', [], .refl s', by rw [h, List.append_nil]⟩

theorem saidIn_replied {n : ℕ} {connId : ConnId} {m : Message} {carries : Option (OpId × Bytes)}
    {sent : Bool} : saidIn [.replied n connId m carries sent] =
      if sent then (mailOf m).map fun m => (connId, m) else [] := by
  cases sent <;> simp [saidIn, Deed.said]

theorem saidIn_delivered {op : OpId} {connId : ConnId} {m : Message} {carries : List Bytes}
    {sent : Bool} : saidIn [.delivered op connId m carries sent] =
      if sent then (mailOf m).map fun m => (connId, m) else [] := by
  cases sent <;> simp [saidIn, Deed.said]

/-- **A turn that ends with one send.** -/
theorem Ends.send {s' : FrontendState V} {a : Action} {c : ConnId} {m : Message} {deed : Deed}
    {deeds : List Deed} (hs' : s'.log = s.log ++ deeds ++ [deed]) (hdeeds : saidIn deeds = [])
    (hdeed : saidIn [deed] = if s'.Sends c then (mailOf m).map fun m => (c, m) else [])
    (ha : a.mail s'.transport = (mailOf m).map fun m => (c, m)) :
    Ends A s s' (s'.call A o a) := by
  refine ⟨moved_call a, _, mails_call ha, ?_⟩
  rw [hs', saidIn_append, saidIn_append, hdeeds, hdeed, List.append_nil]

/-- A request that is over takes nothing more. -/
theorem next_over {C : AgentCore V Trust} {i : Inbound} (d : Deed) :
    Phase.next C i .over d = none := by
  cases d <;> simp [Phase.next, Phase.Launches, Phase.Replies, Phase.Applies]

/-- Until a request is over, nothing was said for it. -/
theorem saidIn_of_life {C : AgentCore V Trust} {i : Inbound} {n : ℕ} {deeds : List Deed}
    {φ φ' : Phase} (h : (life C i n).run φ deeds = some φ') (hover : φ' ≠ .over) :
    saidIn deeds = [] := by
  induction deeds generalizing φ with
  | nil => rfl
  | cons d deeds ih =>
    obtain ⟨φ₁, hstep, hrun⟩ := Machine.run_cons_eq_some.1 h
    have hd : d.said = [] := by
      cases d with
      | replied n' connId m carries sent =>
        -- a reply ends the request, and then the run is at its end too
        obtain ⟨-, -, -, rfl⟩ := next_replied.1 (life_step.1 hstep).2
        cases deeds with
        | nil => exact absurd (Option.some.inj hrun).symm hover
        | cons d' deeds =>
          obtain ⟨φ₂, hstep', -⟩ := Machine.run_cons_eq_some.1 hrun
          simp [life, next_over] at hstep'
      | delivered op connId m carries sent => simp [life, Deed.number?] at hstep
      | _ => rfl
    rw [saidIn, List.flatMap_cons, hd, List.nil_append]
    exact ih hrun

theorem not_over_of_refuses {φ : Phase} (h : φ.Refuses) : φ ≠ .over := by
  rintro rfl
  exact h

/-- A handler's script says nothing. -/
theorem saidIn_handle {i : Inbound} {n : ℕ} : saidIn (handle A o s n i).log = [] := by
  obtain ⟨φ, hrun, hφ⟩ := handle_refuses (A := A) (o := o) (s := s) (n := n) (i := i)
  exact saidIn_of_life hrun (not_over_of_refuses hφ)

/-- The reply of a dispatch: the connection is there. -/
theorem Ends.reply (s₁ : FrontendState V) (deeds : List Deed) {i : Inbound} (hi : Arrives s i)
    (ht : s₁.transport = s.transport) (hlog : s₁.log = s.log ++ deeds)
    (hquiet : saidIn deeds = []) (n : ℕ) (m : Message) (fds : List Fd)
    (carries : Option (OpId × Bytes)) :
    Ends A s (s₁.did [.replied n i.connId m carries true])
      (s₁.reply A o n i.connId m fds carries) := by
  have hsends : s₁.Sends i.connId := by
    have := hi.sends
    unfold FrontendState.Sends at this ⊢
    rwa [ht]
  have hthere : (s₁.did [.replied n i.connId m carries true]).Sends i.connId := hsends
  unfold FrontendState.reply
  rw [decide_eq_true hsends]
  refine Ends.send (by rw [FrontendState.did, hlog]) hquiet ?_ rfl
  rw [saidIn_replied, if_pos rfl, if_pos hthere]

/-- The presence wish of a connection does not take it away. -/
theorem sends_wants {c d : ConnId} {wants : Bool} (h : s.Sends c) :
    (s.call A o (.setWantsPresenceEvents d wants)).Sends c := by
  rw [call_eq _ h.1]
  set t := s.transport.act A.wire o.kernel (.setWantsPresenceEvents d wants)
  have hframe := s.transport.frame_act (W := A.wire) o.kernel (.setWantsPresenceEvents d wants)
  have hpump : t.pump = s.transport.pump := State.pump_of_frame hframe
  have hquiesced : t.loopQuiesced = s.transport.loopQuiesced :=
    State.loopQuiesced_of_frame hframe
  refine ⟨⟨hquiesced.trans h.1.1, ?_⟩, ?_⟩
  · intro p hp
    change p ∈ t.pump at hp
    rw [hpump] at hp
    exact h.1.2 p hp
  · change c ∈ (s.transport.setWantsPresenceEvents d wants).connections
    unfold State.setWantsPresenceEvents
    split
    · exact h.2
    · exact ExtTreeMap.mem_insert.2 (.inr h.2)

theorem saidIn_emittedDeeds (op : OpId) (blocks : List Block) :
    saidIn (emittedDeeds op blocks) = [] := by
  simp only [saidIn, emittedDeeds, List.flatMap_eq_nil_iff, List.mem_filterMap]
  rintro d ⟨block, -, hd⟩
  cases block <;> simp at hd
  subst hd
  rfl

/-- **A dispatch is a turn, and its sends.** -/
theorem dispatch_turn {i : Inbound} (hi : Arrives s i) (hfresh : s.LaunchesFresh o = true)
    (event : Input) :
    ∃ s', FrontendTurn A s (.loop event o) s' ∧ Ends A s s' (s.dispatch A o i) := by
  have hdispatch : s.dispatch A o i = (s.handled A o i).conclude A o s.requests.length i
      (handle A o s s.requests.length i).result := rfl
  have hlog : (s.handled A o i).log = s.log ++ (handle A o s s.requests.length i).log := rfl
  have hquiet := saidIn_handle (A := A) (o := o) (s := s) (n := s.requests.length) (i := i)
  have hreply := Ends.reply (A := A) (o := o) (s.handled A o i) _ hi rfl hlog hquiet
    s.requests.length
  rw [hdispatch]
  cases hresult : (handle A o s s.requests.length i).result with
  | error code => exact ⟨_, .replied hi (.refused hresult), hreply _ [] none⟩
  | ok ending =>
    cases ending with
    | reply m fds carries => exact ⟨_, .replied hi (.reply hresult), hreply m fds carries⟩
    | sendThenClose m =>
      refine ⟨_, .replied hi (.sendThenClose hresult), ?_⟩
      have hthere : (s.handled A o i).Sends i.connId := hi.sends
      simp only [FrontendState.conclude]
      rw [decide_eq_true hthere]
      refine Ends.send (by rw [FrontendState.did, hlog]) hquiet ?_ rfl
      rw [saidIn_replied, if_pos rfl]
      exact (if_pos hthere).symm
    | hello wantsEvents ack =>
      refine ⟨_, .replied hi (.hello hresult), ?_⟩
      -- the connection's wish is noted first, and the reply sent after it
      set u := s.handled A o i
      have hthere : u.Sends i.connId := hi.sends
      have hnoted : (u.call A o (.setWantsPresenceEvents i.connId wantsEvents)).Sends i.connId :=
        sends_wants hthere
      simp only [FrontendState.conclude, FrontendState.sendReplyOnLoop, FrontendState.reply]
      rw [decide_eq_true hnoted, FrontendState.did_call]
      refine ⟨(moved_call _).trans (moved_call _), _,
        (mails_quiet rfl).trans (mails_sendTo i.connId ack []), ?_⟩
      rw [← FrontendState.did_call, if_pos (by exact hnoted)]
      rw [FrontendState.did, hlog, saidIn_append, saidIn_append, hquiet, saidIn_replied]
      simp
    | launch target spec onSignArtifact =>
      simp only [FrontendState.conclude, FrontendState.replyLaunched]
      cases hlaunched : o.launched with
      | error code => exact ⟨_, .replied hi (.notLaunched hresult hlaunched), hreply _ [] none⟩
      | ok out =>
        obtain ⟨op, early⟩ := out
        have hnew : s.ops op = none := by
          simpa [FrontendState.LaunchesFresh, hlaunched] using hfresh
        refine ⟨_, .launched hi hresult hlaunched hnew, ?_⟩
        set x : Operation := ⟨s.requests.length, i.connId, i.caller, onSignArtifact, false⟩
        set u := (s.handled A o i).did [.launched s.requests.length op target spec]
        have hlaunch : (s.handled A o i).launch o s.requests.length i target spec onSignArtifact op
            early = u.emitted op (emitAll o.anonFdFromBytes op x early) := by
          unfold FrontendState.launch
          rw [foldl_emit (x := x) (Function.update_self ..)]
          simp [FrontendState.emitted, FrontendState.did, u]
        dsimp only
        rw [hlaunch]
        refine Ends.reply { u.emitted op (emitAll o.anonFdFromBytes op x early) with
          opOwners := Function.update s.opOwners op (some i.caller) }
          ((handle A o s s.requests.length i).log ++
            [.launched s.requests.length op target spec] ++
            emittedDeeds op (emitAll o.anonFdFromBytes op x early).1) hi rfl ?_ ?_ _ _ [] none
        · simp [FrontendState.emitted, FrontendState.did, u, hlog]
        · rw [saidIn_append, saidIn_append, hquiet, saidIn_emittedDeeds]
          rfl
    | confirm x =>
      simp only [FrontendState.conclude, FrontendState.confirmThenApply]
      cases hcopy : describeTrustChange x.key x.what with
      | none => exact ⟨_, .replied hi (.notAsked hresult), hreply _ [] none⟩
      | some copy =>
        by_cases hfree : i.caller ∈ s.confirmsInFlight
        · have hasked : i.caller ∈ (s.handled A o i).confirmsInFlight := hfree
          simp only [hasked, if_true]
          exact ⟨_, .replied hi (.notAsked hresult), hreply _ [] none⟩
        · have hasked : i.caller ∉ (s.handled A o i).confirmsInFlight := hfree
          simp only [hasked, if_false]
          refine ⟨_, .asked hi hresult hcopy hfree, .quiet ?_⟩
          rw [FrontendState.did, hlog, saidIn_append, saidIn_append, hquiet]
          simp [saidIn, Deed.said]
    | apply x =>
      refine ⟨_, .changed hi hresult, ?_⟩
      have hperform := Ends.reply (A := A) (o := o)
        ({ s.handled A o i with store := (x.run A o i.request.req s.store).store }.did
          [.applied s.requests.length i.connId i.request.req false
            (x.run A o i.request.req s.store).effects]) _ hi rfl
        (by rw [FrontendState.did, hlog, List.append_assoc]) ?_ s.requests.length
        (x.run A o i.request.req s.store).reply [] none
      · rw [FrontendState.did_did] at hperform
        exact hperform
      · rw [saidIn_append, hquiet]
        rfl
    | broker reader verb =>
      refine ⟨_, .brokered hi hresult, .quiet ?_⟩
      rw [FrontendState.did, hlog, saidIn_append, saidIn_append, hquiet]
      simp [saidIn, Deed.said]

/-- A reply from a block: the connection may be gone. -/
theorem Ends.told (s₁ : FrontendState V) (deeds : List Deed) (hlog : s₁.log = s.log ++ deeds)
    (hquiet : saidIn deeds = []) (n : ℕ) (c : ConnId) (m : Message) :
    Ends A s (s₁.did [.replied n c m none (s₁.Sends c)]) (s₁.sendReplyOnLoop A o n c m) := by
  refine Ends.send (by rw [FrontendState.did, hlog]) hquiet ?_ rfl
  rw [saidIn_replied]
  by_cases hthere : s₁.Sends c
  · rw [decide_eq_true hthere, if_pos rfl]
    exact (if_pos hthere).symm
  · rw [decide_eq_false hthere]
    exact (if_neg hthere).symm

theorem Ends.event (s₁ : FrontendState V) (hlog : s₁.log = s.log) (op : OpId) (c : ConnId)
    (m : Message) (fds : List Fd) (carries : List Bytes) :
    Ends A s (s₁.did [.delivered op c m carries (s₁.Sends c)])
      (s₁.sendEvent A o op c m fds carries) := by
  have hsaid : (s₁.did [.delivered op c m carries (s₁.Sends c)]).log =
      s.log ++ [] ++ [.delivered op c m carries (s₁.Sends c)] := by
    rw [FrontendState.did, hlog, List.append_nil]
  refine Ends.send hsaid rfl ?_ rfl
  rw [saidIn_delivered]
  by_cases hthere : s₁.Sends c
  · rw [decide_eq_true hthere, if_pos rfl]
    exact (if_pos hthere).symm
  · rw [decide_eq_false hthere]
    exact (if_neg hthere).symm

/-- A block that posts nothing and sends nothing. -/
theorem Ends.did {s' : FrontendState V} {deeds : List Deed} (h : s'.log = s.log ++ deeds)
    (hdeeds : saidIn deeds = []) : Ends A s s' s' :=
  .quiet (by rw [h, saidIn_append, hdeeds, List.append_nil])

/-- **The loop runs a block.** -/
theorem run_turn (h : s.run A o = some t) :
    ∃ s', FrontendTurn A s (.run o) s' ∧ Ends A s s' t := by
  unfold FrontendState.run at h
  cases hposted : s.posted with
  | nil => rw [hposted] at h; cases h
  | cons block rest =>
    simp only [hposted] at h
    split at h
    · cases h
    next hpump =>
      have hpump : s.transport.pump = none := by simpa using hpump
      obtain rfl := Option.some.inj h
      clear h
      by_cases hq : s.transport.loopQuiesced = true
      · rw [if_pos hq]
        exact ⟨_, .dropped hposted (.inl hq), .quiet rfl⟩
      have hcan : s.transport.CanAct := ⟨by simpa using hq, by simp [hpump]⟩
      rw [if_neg hq]
      -- without a frontend, its blocks do nothing
      have hblock : ∀ {s' u : FrontendState V}, (∀ n c m, block ≠ .reply n c m) →
          (∀ op c m fds carries, block ≠ .event op c m fds carries) →
          (s.alive = true → FrontendTurn A s (.run o) s' ∧ Ends A s s' u) →
          ∃ s', FrontendTurn A s (.run o) s' ∧
            Ends A s s' (if s.alive = true then u else { s with posted := rest }) := by
        intro s' u hreply hevent hrun
        by_cases halive : s.alive = true
        · rw [if_pos halive]
          exact ⟨s', hrun halive⟩
        · rw [if_neg halive]
          exact ⟨_, .dropped hposted (.inr ⟨by simpa using halive, hreply, hevent⟩), .quiet rfl⟩
      cases block with
      | reply n connId m =>
        refine ⟨_, .reply hposted hcan, ?_⟩
        exact Ends.told (s := s) { s with posted := rest } [] (List.append_nil _).symm rfl n connId m
      | event op connId m fds carries =>
        refine ⟨_, .event hposted hcan, ?_⟩
        exact Ends.event (s := s) { s with posted := rest } rfl op connId m fds carries
      | answered ask verdict =>
        by_cases hverdict : verdict = .ok
        · subst hverdict
          refine hblock (by simp) (by simp) fun halive => ⟨.confirmed hposted hcan halive, ?_⟩
          have htold := Ends.told (A := A) (o := o) (s := s)
            ({ s with posted := rest
                      confirmsInFlight := s.confirmsInFlight.filter fun c => c ≠ ask.caller
                      store := (ask.apply.run A o ask.req s.store).store }.did
              [.applied ask.n ask.connId ask.req true (ask.apply.run A o ask.req s.store).effects])
            _ rfl rfl ask.n ask.connId (ask.apply.run A o ask.req s.store).reply
          rw [FrontendState.did_did] at htold
          exact htold
        · refine hblock (by simp) (by simp) fun halive =>
            ⟨.declined hposted hcan halive hverdict, ?_⟩
          unfold FrontendState.answered
          rw [if_neg hverdict]
          exact Ends.told (s := s) { s with
            posted := rest
            confirmsInFlight := s.confirmsInFlight.filter fun c => c ≠ ask.caller } []
            (List.append_nil _).symm rfl ask.n ask.connId _
      | stash op owner artifact =>
        exact hblock (by simp) (by simp) fun halive => ⟨.stashed hposted hcan halive, .did rfl rfl⟩
      | prune op =>
        exact hblock (by simp) (by simp) fun halive => ⟨.pruned hposted hcan halive, .did rfl rfl⟩
      | evictSignResult op =>
        exact hblock (by simp) (by simp) fun halive => ⟨.expired hposted hcan halive, .did rfl rfl⟩
      | evictClient caller =>
        exact hblock (by simp) (by simp) fun halive => ⟨.evicted hposted hcan halive, .did rfl rfl⟩

theorem mem_inbound {obs : List (ConnId × Obs Envelope)} {i : Inbound} (h : i ∈ inbound obs) :
    (i.connId, .request i.caller i.request i.fds) ∈ obs := by
  simp only [inbound, List.mem_filterMap] at h
  obtain ⟨⟨c, e⟩, hmem, heq⟩ := h
  cases e <;> simp at heq
  subst heq
  exact hmem

theorem inbound_eq_nil {obs : List (ConnId × Obs Envelope)} (h : ∀ e ∈ obs, ¬ e.2.IsRequest) :
    inbound obs = [] := by
  rw [List.eq_nil_iff_forall_not_mem]
  intro i hi
  exact h _ (mem_inbound hi) trivial

/-- An event that the loop serves sends nothing by name. -/
theorem mails_event {i : Input} {t : State Envelope} (h : s.transport.step A.wire i = some t)
    (hserves : s.Serves i.event = true) : Mails s (s.absorb t) [] := by
  intro c
  refine (mail_event h ?_ c).trans (by simp)
  intro a ha
  rw [ha] at hserves
  cases a <;> first | rfl | simp [FrontendState.Serves] at hserves

/-- **The loop serves the transport**, and dispatches the request it hands
over, if there is one. -/
theorem loop_cases (hs : (transport A.wire).Reachable s.transport) {i : Input}
    (h : s.loop A i o = some t) :
    s.Serves i.event = true ∧ s.LaunchesFresh o = true ∧
      ∃ t', s.transport.step A.wire i = some t' ∧
        (t = s.absorb t' ∨ ∃ x, Arrives (s.absorb t') x ∧ t = (s.absorb t').dispatch A o x) := by
  unfold FrontendState.loop at h
  by_cases hok : s.Serves i.event = false ∨ s.LaunchesFresh o = false
  · rw [if_pos hok] at h
    cases h
  rw [if_neg hok] at h
  push Not at hok
  obtain ⟨hserves, hfresh⟩ := hok
  obtain ⟨t', ht', heq⟩ := Option.map_eq_some_iff.1 h
  refine ⟨by simpa using hserves, by simpa using hfresh, t', ht', ?_⟩
  have horderly := reachable_orderly hs
  dsimp only at heq
  cases halive : s.alive with
  | false =>
    rw [halive] at heq
    exact .inl heq.symm
  | true =>
    rw [halive, if_pos rfl] at heq
    rcases request_step horderly ht' with hnone | ⟨p, c, caller, req, fds, hsince, hsink, hq, hp, hserving⟩
    · rw [inbound_eq_nil hnone] at heq
      exact .inl heq.symm
    · rw [hsince] at heq
      obtain ⟨hcaller, hc⟩ := request_since horderly ht' (by rw [hsince]; exact List.mem_singleton.2 rfl)
      have hquiesced : s.transport.loopQuiesced = false := by
        cases hs' : s.transport.loopQuiesced with
        | false => rfl
        | true =>
          have hsevered := (severed_of_quiesced hs hs').sink
          rw [hsink] at hsevered
          cases hsevered
      have hcan : t'.CanAct := by
        refine ⟨hq.trans hquiesced, fun p' hp' => ?_⟩
        rw [hp] at hp'
        obtain rfl := Option.some.inj hp'
        exact hserving
      exact .inr ⟨⟨c, caller, req, fds⟩, ⟨halive, ⟨hcan, hc⟩, hcaller⟩, heq.symm⟩

/-- Then it is a move of the transport and a turn. -/
theorem loop_turn (hs : (transport A.wire).Reachable s.transport) {i : Input}
    (h : s.loop A i o = some t) :
    ∃ s₀ s', Shifted A s s₀ ∧ Mails s s₀ [] ∧ FrontendTurn A s₀ (.loop i o) s' ∧ Ends A s₀ s' t := by
  obtain ⟨hserves, hfresh, t', ht', heq⟩ := loop_cases hs h
  have hmoved : Shifted A s (s.absorb t') := moved_absorb ht'
  have hmails := mails_event ht' hserves
  rcases heq with rfl | ⟨x, hx, rfl⟩
  · exact ⟨_, _, hmoved, hmails, .idle _, .quiet rfl⟩
  · obtain ⟨s', hturn, hends⟩ := dispatch_turn (A := A) (o := o) hx hfresh i
    exact ⟨_, s', hmoved, hmails, hturn, hends⟩

/-- **A step of the frontend** is a move of the transport, a turn, and the
sends of the turn. -/
theorem step_turn (hs : (transport A.wire).Reachable s.transport) {input : FrontendInput}
    (h : s.step A input = some t) :
    ∃ s₀ s', Shifted A s s₀ ∧ Mails s s₀ [] ∧ FrontendTurn A s₀ input s' ∧ Ends A s₀ s' t := by
  have hown : ∀ {s'}, FrontendTurn A s input s' → Ends A s s' t →
      ∃ s₀ s', Shifted A s s₀ ∧ Mails s s₀ [] ∧ FrontendTurn A s₀ input s' ∧ Ends A s₀ s' t :=
    fun hturn hends => ⟨s, _, .refl s, .refl s, hturn, hends⟩
  cases input with
  | loop i o => exact loop_turn hs h
  | answer idx verdict =>
    obtain ⟨ask, hask, rfl⟩ := Option.map_eq_some_iff.1 h
    refine hown (.answer hask) ?_
    cases halive : s.alive <;> simp only [FrontendState.answer, FrontendState.did]
    · simp only [Bool.false_eq_true, if_false, List.append_nil]
      exact .did rfl rfl
    · simp only [if_true]
      exact .did rfl rfl
  | emit op e anonFdFromBytes =>
    obtain rfl := Option.some.inj h
    cases hx : s.ops op with
    | none =>
      have hsame : s.emit anonFdFromBytes op e = s := by simp [FrontendState.emit, hx]
      exact hown (.idle _) (by rw [hsame]; exact .quiet rfl)
    | some x =>
      have hemit : s.emit anonFdFromBytes op e = s.emitted op (emitAll anonFdFromBytes op x [e]) :=
        foldl_emit hx [e]
      exact hown (.emit hx e anonFdFromBytes)
        (by rw [hemit]; exact .did rfl (saidIn_emittedDeeds op _))
  | broker idx result =>
    obtain ⟨call, hcall, rfl⟩ := Option.map_eq_some_iff.1 h
    exact hown (.broker (Option.filter_eq_some_iff.1 hcall).1) (.quiet rfl)
  | due idx =>
    obtain ⟨op, hop, rfl⟩ := Option.map_eq_some_iff.1 h
    exact hown (.due hop) (.quiet rfl)
  | run o =>
    obtain ⟨s', hturn, hends⟩ := run_turn h
    exact hown hturn hends
  | destroy =>
    obtain rfl := Option.some.inj h
    exact hown .destroy (.quiet rfl)

/-- Seen from the transport, a step is a run. -/
theorem transport_step (hs : (transport A.wire).Reachable s.transport) {input : FrontendInput}
    (h : s.step A input = some t) : (transport A.wire).Reachable t.transport := by
  obtain ⟨s₀, s', hmoved, -, hturn, hends⟩ := step_turn hs h
  have hsame : s'.transport = s₀.transport := by cases hturn <;> rfl
  have hs₀ := hmoved.reachable hs
  rw [← hsame] at hs₀
  exact hends.moved.reachable hs₀

/-- **The transport under the frontend** is one the transport's own theorems
are about. -/
theorem reachable_transport (h : (frontend A).Reachable s) :
    (transport A.wire).Reachable s.transport := by
  refine h.invariant (I := fun s => (transport A.wire).Reachable s.transport) ?_ ?_
  · rintro s ⟨store, rfl⟩
    exact .of_init (State.started_start _)
  · intro s input t hs hst
    exact transport_step hs hst

/-- What the start has, and the moves of the transport and the turns
keep. -/
structure Closed (A : Agent V Trust) (I : FrontendState V → Prop) : Prop where
  start : ∀ store, I (.start store)
  moved : ∀ s t, (transport A.wire).Reachable s.transport →
    (transport A.wire).Reachable t.transport → Shifted A s t → I s → I t
  turn : ∀ s input t, (transport A.wire).Reachable s.transport → FrontendTurn A s input t → I s → I t

namespace Closed

variable {I K : FrontendState V → Prop}

/-- **What the moves of the transport keep and the turns keep, every run
keeps.** -/
theorem reachable (hI : Closed A I) (h : (frontend A).Reachable s) : I s := by
  suffices hboth : (transport A.wire).Reachable s.transport ∧ I s from hboth.2
  refine h.invariant (I := fun s => (transport A.wire).Reachable s.transport ∧ I s) ?_ ?_
  · rintro s ⟨store, rfl⟩
    exact ⟨.of_init (State.started_start _), hI.start store⟩
  · rintro s input t ⟨hs, hIs⟩ hst
    obtain ⟨s₀, s', hbefore, -, hown, hends⟩ := step_turn hs hst
    have hsame : s'.transport = s₀.transport := by cases hown <;> rfl
    have hs₀ := hbefore.reachable hs
    have hs' : (transport A.wire).Reachable s'.transport := by rwa [hsame]
    have ht := hends.moved.reachable hs'
    exact ⟨ht, hI.moved _ _ hs' ht hends.moved
      (hI.turn _ _ _ hs₀ hown (hI.moved _ _ hs hs₀ hbefore hIs))⟩

/-- What is kept where something else is known to be. -/
theorem along (hK : Closed A K) (hstart : ∀ store, I (.start store))
    (hmoved : ∀ s t, (transport A.wire).Reachable s.transport →
      (transport A.wire).Reachable t.transport → Shifted A s t → K s → I s → I t)
    (hturn : ∀ s input t, (transport A.wire).Reachable s.transport → FrontendTurn A s input t →
      K s → I s → I t) : Closed A fun s => K s ∧ I s where
  start store := ⟨hK.start store, hstart store⟩
  moved s t hs ht hm h := ⟨hK.moved s t hs ht hm h.1, hmoved s t hs ht hm h.1 h.2⟩
  turn s input t hs hturn' h := ⟨hK.turn s input t hs hturn' h.1, hturn s input t hs hturn' h.1 h.2⟩

/-- Two things that are kept. -/
theorem and (hI : Closed A I) (hK : Closed A K) : Closed A fun s => I s ∧ K s :=
  hI.along hK.start (fun s t hs ht hm _ h => hK.moved s t hs ht hm h)
    fun s input t hs hturn _ h => hK.turn s input t hs hturn h

/-- **What is kept in the runs whose steps are all of one kind.** The kind
of a step is not changed by the moves of the transport before its turn. -/
theorem runWhere (hK : Closed A K) {ok : FrontendState V → FrontendInput → Prop}
    (hok : ∀ s t input, Shifted A s t → ok s input → ok t input)
    (hmoved : ∀ s t, (transport A.wire).Reachable s.transport →
      (transport A.wire).Reachable t.transport → Shifted A s t → K s → I s → I t)
    (hturn : ∀ s input t, (transport A.wire).Reachable s.transport → ok s input →
      FrontendTurn A s input t → K s → I s → I t)
    {is : List FrontendInput} (hs : (frontend A).Reachable s) (hI : I s)
    (h : (frontend A).RunWhere ok s is t) : I t := by
  suffices hall : (transport A.wire).Reachable t.transport ∧ K t ∧ I t from hall.2.2
  refine h.invariant (I := fun s => (transport A.wire).Reachable s.transport ∧ K s ∧ I s) ?_
    ⟨reachable_transport hs, hK.reachable hs, hI⟩
  rintro s input t ⟨hs, hKs, hIs⟩ hkind hst
  obtain ⟨s₀, s', hbefore, -, hown, hends⟩ := step_turn hs hst
  have hsame : s'.transport = s₀.transport := by cases hown <;> rfl
  have hs₀ := hbefore.reachable hs
  have hs' : (transport A.wire).Reachable s'.transport := by rwa [hsame]
  have ht := hends.moved.reachable hs'
  have hK₀ := hK.moved _ _ hs hs₀ hbefore hKs
  have hK' := hK.turn _ _ _ hs₀ hown hK₀
  have hI₀ := hmoved _ _ hs hs₀ hbefore hKs hIs
  have hI' := hturn _ _ _ hs₀ (hok _ _ _ hbefore hkind) hown hK₀ hI₀
  exact ⟨ht, hK.moved _ _ hs' ht hends.moved hK', hmoved _ _ hs' ht hends.moved hK' hI'⟩

end Closed

/-- **All the mail of a connection** is what the log says was handed to
it. -/
theorem reachable_mail (h : (frontend A).Reachable s) (c : ConnId) :
    mailIn (s.transport.seen c) = mailFor c (saidIn s.log) := by
  suffices hboth : (transport A.wire).Reachable s.transport ∧
      ∀ c, mailIn (s.transport.seen c) = mailFor c (saidIn s.log) from hboth.2 c
  refine h.invariant (I := fun s => (transport A.wire).Reachable s.transport ∧
    ∀ c, mailIn (s.transport.seen c) = mailFor c (saidIn s.log)) ?_ ?_
  · rintro s ⟨store, rfl⟩
    exact ⟨.of_init (State.started_start _), fun c => rfl⟩
  · rintro s input t ⟨hs, hmail⟩ hst
    refine ⟨transport_step hs hst, fun c => ?_⟩
    obtain ⟨s₀, s', hbefore, hquiet, hown, hmoved, mail, hmails, hsaid⟩ := step_turn hs hst
    have hsame : s'.transport = s₀.transport := by cases hown <;> rfl
    rw [hmails c, hsame, hquiet c, hmail c, hmoved.log, hsaid, hbefore.log]
    simp

end Frontend

end LibreDarwin
