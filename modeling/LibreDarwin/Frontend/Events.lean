import LibreDarwin.Frontend.Reply
import LibreDarwin.Frontend.Stores

/-!
# What a client is told of its operation

The reply that an operation started is sent by the handler that launched
it, and its events come in blocks behind that handler, in the order the
worker emitted them. So what was handed to the connection of an operation
is that reply and a beginning of the events, and what is left of them is
posted, or the connection or the loop is gone (`Underway`). The owner is
entered in the same handler, and a launch never takes an id again, so an
operation that was pruned has no owner (`operation_events`).
-/

namespace LibreDarwin

namespace Frontend

open Wire Transport OperationChannel Script

variable {V Trust : Type*} {A : Agent V Trust} {o : Outside} {s t : FrontendState V}

/-- Whether a message says that its operation finished. -/
def IsFinished : Message → Bool
  | .opFinished _ _ _ _ _ => true
  | _ => false

/-! ## Readings of the log and the queue -/

/-- What a log says was handed over of an operation. -/
def opSaid (op : OpId) (log : List Deed) : List (ConnId × Message) :=
  (saidIn log).filter fun e => e.2.op? = some op

/-- What the worker of an operation emitted, in order. -/
def emittedBy (op : OpId) (log : List Deed) : List Message :=
  log.filterMap fun
    | .emitted op' m => if op' = op then some m else none
    | _ => none

/-- The events of an operation that are posted. -/
def pendingOf (op : OpId) (blocks : List Block) : List Message :=
  blocks.filterMap fun
    | .event op' _ m _ _ => if op' = op then some m else none
    | _ => none

@[simp] theorem opSaid_append (op : OpId) (a b : List Deed) :
    opSaid op (a ++ b) = opSaid op a ++ opSaid op b := by
  simp [opSaid]

@[simp] theorem emittedBy_append (op : OpId) (a b : List Deed) :
    emittedBy op (a ++ b) = emittedBy op a ++ emittedBy op b := List.filterMap_append

@[simp] theorem pendingOf_append (op : OpId) (a b : List Block) :
    pendingOf op (a ++ b) = pendingOf op a ++ pendingOf op b := List.filterMap_append

/-- A deed that tells of no operation. -/
def Deed.Quiet : Deed → Prop
  | .replied _ _ m _ _ => m.op? = none
  | .emitted _ _ | .delivered _ _ _ _ _ => False
  | _ => True

/-- A block that is no event. -/
def Block.Quiet : Block → Prop
  | .event _ _ _ _ _ => False
  | _ => True

theorem opSaid_of_quiet (op : OpId) {deeds : List Deed} (h : ∀ d ∈ deeds, d.Quiet) :
    opSaid op deeds = [] := by
  simp only [opSaid, saidIn, List.filter_eq_nil_iff, List.mem_flatMap, decide_eq_true_eq]
  rintro e ⟨d, hd, he⟩ hop
  have hquiet := h d hd
  cases d with
  | replied n connId m carries sent =>
    cases sent with
    | false => cases he
    | true =>
      obtain ⟨m', hm', rfl⟩ := List.mem_map.1 he
      obtain rfl : m' = m := by
        unfold mailOf at hm'
        split at hm'
        · cases hm'
        · exact List.mem_singleton.1 hm'
      rw [show m'.op? = none from hquiet] at hop
      cases hop
  | delivered op' connId m carries sent => exact hquiet
  | _ => cases he

theorem emittedBy_of_quiet (op : OpId) {deeds : List Deed} (h : ∀ d ∈ deeds, d.Quiet) :
    emittedBy op deeds = [] := by
  refine List.filterMap_eq_nil_iff.2 fun d hd => ?_
  have hquiet := h d hd
  cases d with
  | emitted op' m => exact hquiet.elim
  | _ => rfl

theorem pendingOf_of_quiet (op : OpId) {blocks : List Block} (h : ∀ b ∈ blocks, b.Quiet) :
    pendingOf op blocks = [] := by
  refine List.filterMap_eq_nil_iff.2 fun b hb => ?_
  have hquiet := h b hb
  cases b with
  | event op' connId m fds carries => exact hquiet.elim
  | _ => rfl

/-- A message of an operation that was handed over is handed over as
such. -/
theorem opSaid_sent {op : OpId} {connId : ConnId} {m : Message} (hm : m.op? = some op) (op' : OpId) :
    ((mailOf m).map fun m => (connId, m)).filter (fun e => e.2.op? = some op') =
      if op' = op then [(connId, m)] else [] := by
  have hmail : mailOf m = [m] := by
    unfold mailOf
    rw [if_neg]
    cases m <;> simp [IsEvent, Message.op?] at hm ⊢
  by_cases hop : op' = op
  · simp [hmail, hm, hop]
  · have hne : ¬ op = op' := fun heq => hop heq.symm
    simp [hmail, hm, hop, hne]

theorem opSaid_replied {n : ℕ} {connId : ConnId} {m : Message} {carries : Option (OpId × Bytes)}
    {op : OpId} (hm : m.op? = some op) (op' : OpId) :
    opSaid op' [.replied n connId m carries true] = if op' = op then [(connId, m)] else [] := by
  unfold opSaid
  rw [saidIn_replied, if_pos rfl, opSaid_sent hm]

theorem opSaid_delivered {op : OpId} {connId : ConnId} {m : Message} {carries : List Bytes}
    (hm : m.op? = some op) (op' : OpId) (sent : Bool) :
    opSaid op' [.delivered op connId m carries sent] =
      if sent = true ∧ op' = op then [(connId, m)] else [] := by
  unfold opSaid
  rw [saidIn_delivered]
  cases sent with
  | false => simp
  | true => simp [opSaid_sent hm op']

theorem opSaid_emittedDeeds (op op' : OpId) (blocks : List Block) :
    opSaid op' (emittedDeeds op blocks) = [] := by
  unfold opSaid
  rw [saidIn_emittedDeeds]
  rfl

/-- What is written down of emissions is what they post. -/
theorem emittedBy_emittedDeeds {op : OpId} {x : Operation} {blocks : List Block}
    (h : ∀ block ∈ blocks, block.From op x) (op' : OpId) :
    emittedBy op' (emittedDeeds op blocks) = pendingOf op' blocks := by
  induction blocks with
  | nil => rfl
  | cons block blocks ih =>
    have ih := ih fun b hb => h b (List.mem_cons_of_mem _ hb)
    have hfrom := h block List.mem_cons_self
    rw [← List.singleton_append, emittedDeeds_append, emittedBy_append, pendingOf_append, ih]
    refine congrArg (· ++ pendingOf op' blocks) ?_
    cases block with
    | event op'' connId m fds carries =>
      obtain ⟨rfl, -⟩ := hfrom
      rfl
    | _ => rfl

/-- And it is of no other operation. -/
theorem pendingOf_other {op op' : OpId} {x : Operation} {blocks : List Block}
    (h : ∀ block ∈ blocks, block.From op x) (hne : op' ≠ op) : pendingOf op' blocks = [] := by
  refine List.filterMap_eq_nil_iff.2 fun block hb => ?_
  have hfrom := h block hb
  cases block with
  | event op'' connId m fds carries =>
    obtain ⟨rfl, -⟩ := hfrom
    exact if_neg hne.symm
  | _ => rfl

/-- A handler's script tells of no operation. -/
theorem quiet_handle {i : Inbound} {n : ℕ} : ∀ d ∈ (handle A o s n i).log, d.Quiet := by
  intro d hd
  obtain ⟨φ, hrun, -⟩ := handle_refuses (A := A) (o := o) (s := s) (n := n) (i := i)
  have hnumber := number_of_run hrun hd
  cases d with
  | replied n' connId m carries sent => exact absurd hd (not_replied_handle n' connId m carries sent)
  | emitted op m => simp [Deed.number?] at hnumber
  | delivered op connId m carries sent => simp [Deed.number?] at hnumber
  | _ => trivial

/-- Nor does a reply that ends a dispatch without a launch. -/
theorem Says.op? {i : Inbound} {m : Message} {carries : Option (OpId × Bytes)}
    (h : Says A o s i m carries) : m.op? = none := by
  cases h with
  | reply h =>
    obtain ⟨φ, -, -, -, hop⟩ := permitted_of_ok h
    exact hop
  | sendThenClose h =>
    obtain ⟨φ, -, -, -, hop⟩ := permitted_of_ok h
    exact hop
  | hello h =>
    obtain ⟨φ, -, -, -, hop⟩ := permitted_of_ok h
    exact hop
  | _ => rfl

/-! ## The last event -/

/-- **The event that says it finished is the last.** While the operation
goes on, there is none. -/
structure FinishedLast (finished : Bool) (ms : List Message) : Prop where
  last : ∀ before m after, ms = before ++ m :: after → IsFinished m = true → after = []
  going : finished = false → ∀ m ∈ ms, IsFinished m = false

namespace FinishedLast

theorem nil : FinishedLast false [] := ⟨by simp, by simp⟩

theorem snoc {ms : List Message} (h : FinishedLast false ms) (m : Message) :
    FinishedLast (IsFinished m) (ms ++ [m]) := by
  have hgoing := h.going rfl
  constructor
  · intro before m' after heq hm'
    rcases List.eq_nil_or_concat after with rfl | ⟨rest, z, rfl⟩
    · rfl
    · -- what is not the last was there before, and is no end
      rw [List.concat_eq_append, ← List.cons_append, ← List.append_assoc] at heq
      obtain ⟨hms, -⟩ := List.append_inj' heq rfl
      rw [hgoing m' (by rw [hms]; simp)] at hm'
      cases hm'
  · intro hm m' hm'
    rcases List.mem_append.1 hm' with hold | hnew
    · exact hgoing m' hold
    · rw [List.mem_singleton.1 hnew]
      exact hm

end FinishedLast

theorem not_finished_result {anonFdFromBytes : Bytes → Option Fd} {op : OpId}
    {payload : ResultPayload} {m : Message} {fds : List Fd}
    (h : emitResult anonFdFromBytes op payload = some (m, fds)) : IsFinished m = false := by
  cases payload with
  | cardRead identity => cases h; rfl
  | certs certs => cases h; rfl
  | credentials body => cases h; rfl
  | photos photos =>
    obtain ⟨out, -, heq⟩ := Option.map_eq_some_iff.1 h
    cases heq
    rfl
  | artifact bytes =>
    obtain ⟨fd, -, heq⟩ := Option.map_eq_some_iff.1 h
    cases heq
    rfl
  | batch rows =>
    obtain ⟨out, -, heq⟩ := Option.map_eq_some_iff.1 h
    cases heq
    rfl

/-- An emission is one event, or none: a result whose descriptors could not
be made. -/
theorem pendingOf_emission (anonFdFromBytes : Bytes → Option Fd) (op : OpId) (x : Operation)
    (e : Emission) :
    pendingOf op (emissionBlocks anonFdFromBytes op x e) = [] ∧ e.IsFinished = false ∨
      ∃ m, pendingOf op (emissionBlocks anonFdFromBytes op x e) = [m] ∧
        IsFinished m = e.IsFinished := by
  cases e with
  | progress phase => exact .inr ⟨.opProgress op phase, by simp [emissionBlocks, pendingOf], rfl⟩
  | group groupKey fields =>
    exact .inr ⟨.opIdentityGroup op groupKey fields, by simp [emissionBlocks, pendingOf], rfl⟩
  | finished status code msgKey msgFallback =>
    exact .inr ⟨.opFinished op status code msgKey msgFallback,
      by simp [emissionBlocks, pendingOf], rfl⟩
  | result payload info =>
    simp only [emissionBlocks]
    cases hres : emitResult anonFdFromBytes op payload with
    | none => exact .inl ⟨rfl, rfl⟩
    | some out =>
      obtain ⟨m, fds⟩ := out
      have hstash : pendingOf op (stashBlock op x info payload) = [] := by
        refine pendingOf_of_quiet op fun b hb => ?_
        unfold stashBlock at hb
        split at hb
        · split at hb
          · rw [List.mem_singleton.1 hb]
            trivial
          · cases hb
        · cases hb
      refine .inr ⟨m, ?_, not_finished_result hres⟩
      dsimp only
      rw [pendingOf_append, hstash, List.nil_append]
      simp [pendingOf]

/-- **Emissions in a row** end with the event that says it finished. -/
theorem finishedLast_emitAll (anonFdFromBytes : Bytes → Option Fd) (op : OpId)
    (es : List Emission) (x : Operation) (ms : List Message) (h : FinishedLast x.finished ms) :
    FinishedLast (emitAll anonFdFromBytes op x es).2.finished
      (ms ++ pendingOf op (emitAll anonFdFromBytes op x es).1) := by
  induction es generalizing x ms with
  | nil => simpa [emitAll, pendingOf] using h
  | cons e es ih =>
    unfold emitAll
    split
    · simpa [pendingOf] using h
    next hgoing =>
      have hgoing : x.finished = false := by simpa using hgoing
      rw [hgoing] at h
      dsimp only
      rw [pendingOf_append, ← List.append_assoc]
      refine ih { x with finished := e.IsFinished } _ ?_
      rcases pendingOf_emission anonFdFromBytes op x e with ⟨hnone, hfin⟩ | ⟨m, hone, hfin⟩
      · rw [hnone, List.append_nil, hfin]
        exact h
      · rw [hone, ← hfin]
        exact h.snoc m

/-! ## How far an operation is told -/

/-- Whether the loop still hands something to a connection. -/
def FrontendState.Reaches (s : FrontendState V) (c : ConnId) : Prop :=
  s.transport.loopQuiesced = false ∧ c ∈ s.transport.connections

/-- **An operation that was launched**: its connection was told that it
started, and then `sent` of its events. `rest` is posted, as long as it can
be handed over. -/
structure Underway (s : FrontendState V) (op : OpId) (x : Operation) (i : Inbound)
    (sent rest : List Message) : Prop where
  request : s.requests[x.n]? = some i
  said : opSaid op s.log = (.opStarted i.request.req op :: sent).map fun m => (x.connId, m)
  emitted : emittedBy op s.log = sent ++ rest
  pending : s.Reaches x.connId → rest = pendingOf op s.posted
  last : FinishedLast x.finished (emittedBy op s.log)

/-- What is told of an operation, launched or not. -/
inductive Telling (s : FrontendState V) (op : OpId) : Prop
  | unborn (hop : s.ops op = none) (hsaid : opSaid op s.log = [])
      (hemitted : emittedBy op s.log = []) (hpending : pendingOf op s.posted = [])
  | born {x : Operation} {i : Inbound} {sent rest : List Message} (hop : s.ops op = some x)
      (h : Underway s op x i sent rest)

namespace Telling

variable {op : OpId}

/-- Nothing is told, emitted or posted of this operation. -/
theorem same (h : Telling s op) (hop : t.ops op = s.ops op) (hrequests : s.requests <+: t.requests)
    (hsaid : opSaid op t.log = opSaid op s.log) (hemitted : emittedBy op t.log = emittedBy op s.log)
    (hpending : pendingOf op t.posted = pendingOf op s.posted)
    (hreaches : ∀ x, s.ops op = some x → t.Reaches x.connId → s.Reaches x.connId) :
    Telling t op := by
  cases h with
  | unborn hnone hs he hp =>
    exact .unborn (hop.trans hnone) (hsaid.trans hs) (hemitted.trans he) (hpending.trans hp)
  | @born x i sent rest hx h =>
    refine .born (hop.trans hx) ⟨?_, hsaid.trans h.said, hemitted.trans h.emitted, ?_, ?_⟩
    · obtain ⟨later, hlater⟩ := hrequests
      rw [← hlater, List.getElem?_append_left (List.getElem?_eq_some_iff.1 h.request).1]
      exact h.request
    · intro hreach
      rw [hpending]
      exact h.pending (hreaches x hx hreach)
    · rw [hemitted]
      exact h.last

/-- A turn that tells of no operation. -/
theorem quiet (h : Telling s op) (deeds : List Deed) (hlog : t.log = s.log ++ deeds)
    (hdeeds : ∀ d ∈ deeds, d.Quiet) (hops : t.ops = s.ops) (hrequests : s.requests <+: t.requests)
    (hpending : pendingOf op t.posted = pendingOf op s.posted)
    (htransport : t.transport = s.transport) : Telling t op := by
  refine h.same (congrFun hops op) hrequests ?_ ?_ hpending fun x _ hreach => ?_
  · rw [hlog, opSaid_append, opSaid_of_quiet op hdeeds, List.append_nil]
  · rw [hlog, emittedBy_append, emittedBy_of_quiet op hdeeds, List.append_nil]
  · unfold FrontendState.Reaches at hreach ⊢
    rwa [htransport] at hreach

theorem moved (hk : Known s) (hm : Shifted A s t) (h : Telling s op) : Telling t op := by
  obtain ⟨gone, hposted, -⟩ := hm.posted
  have hnone : pendingOf op (gone.map Block.evictClient) = [] :=
    pendingOf_of_quiet op fun b hb => by
      obtain ⟨caller, -, rfl⟩ := List.mem_map.1 hb
      trivial
  refine h.same (by rw [hm.ops]) (by rw [hm.requests]) (by rw [hm.log]) (by rw [hm.log])
    (by rw [hposted, pendingOf_append, hnone, List.append_nil]) ?_
  rintro x hx ⟨hquiesced, hopen⟩
  refine ⟨hm.going hquiesced, ?_⟩
  -- a connection that is there was there: an id that was used is never a new one's
  obtain ⟨i, hi, hof⟩ := hk.ops op x hx
  have hused := (hk.requests i (List.mem_of_getElem? hi)).2
  rw [← hof.connId] at hused
  by_contra hgone
  exact (hm.gone hused hgone).2 hopen

/-- What a worker emits is told of its operation, and of no other. -/
theorem emitted (h : Telling s op) {op' : OpId} {x : Operation} (hx : s.ops op' = some x)
    (anonFdFromBytes : Bytes → Option Fd) (es : List Emission) :
    Telling (s.emitted op' (emitAll anonFdFromBytes op' x es)) op := by
  obtain ⟨hnext, hblocks⟩ := from_emitAll anonFdFromBytes op' es x
  have hlast := finishedLast_emitAll anonFdFromBytes op' es x
  set out := emitAll anonFdFromBytes op' x es
  have hsaid : opSaid op (s.emitted op' out).log = opSaid op s.log := by
    simp [FrontendState.emitted, FrontendState.did, opSaid_emittedDeeds]
  have hemitted : emittedBy op (s.emitted op' out).log =
      emittedBy op s.log ++ pendingOf op out.1 := by
    simp [FrontendState.emitted, FrontendState.did, emittedBy_emittedDeeds hblocks]
  have hposted : pendingOf op (s.emitted op' out).posted =
      pendingOf op s.posted ++ pendingOf op out.1 := pendingOf_append op s.posted out.1
  by_cases hop : op = op'
  · subst hop
    cases h with
    | unborn hnone =>
      rw [hx] at hnone
      cases hnone
    | @born x' i sent rest hx' h =>
      obtain rfl := Option.some.inj (hx.symm.trans hx')
      refine .born (Function.update_self ..)
        (?_ : Underway _ op out.2 i sent (rest ++ pendingOf op out.1))
      refine ⟨?_, ?_, ?_, fun hreach => ?_, ?_⟩
      · rw [hnext.n]
        exact h.request
      · rw [hsaid, hnext.connId]
        exact h.said
      · rw [hemitted, h.emitted, List.append_assoc]
      · rw [hnext.connId] at hreach
        rw [hposted, ← h.pending hreach]
      · rw [hemitted]
        exact hlast _ h.last
  · have hnone := pendingOf_other hblocks hop
    rw [hnone, List.append_nil] at hemitted hposted
    exact h.same (Function.update_of_ne hop ..) (List.prefix_refl _) hsaid hemitted hposted
      fun _ _ hreach => hreach

/-- **A launch**: the operation is told to have started, and what its worker
has emitted by then is posted. -/
theorem launched (h : Telling s op) {i : Inbound} {op' : OpId} {target : OperationTarget}
    {spec : LaunchSpec} {onSignArtifact : Bool} {early : List Emission} (hfresh : s.ops op' = none) :
    Telling ({ ((s.handled A o i).did [.launched s.requests.length op' target spec]).emitted op'
        (emitAll o.anonFdFromBytes op'
          ⟨s.requests.length, i.connId, i.caller, onSignArtifact, false⟩ early) with
        opOwners := Function.update s.opOwners op' (some i.caller) }.did
      [.replied s.requests.length i.connId (.opStarted i.request.req op') none true]) op := by
  set x : Operation := ⟨s.requests.length, i.connId, i.caller, onSignArtifact, false⟩
  obtain ⟨hnext, hblocks⟩ := from_emitAll o.anonFdFromBytes op' early x
  have hlast := finishedLast_emitAll o.anonFdFromBytes op' early x [] .nil
  set out := emitAll o.anonFdFromBytes op' x early
  set t : FrontendState V := FrontendState.did _ _
  have hlog : t.log = s.log ++ ((handle A o s s.requests.length i).log ++
      [.launched s.requests.length op' target spec]) ++ emittedDeeds op' out.1 ++
      [.replied s.requests.length i.connId (.opStarted i.request.req op') none true] := by
    simp [t, FrontendState.did, FrontendState.emitted, FrontendState.handled]
  have hquiet : ∀ d ∈ (handle A o s s.requests.length i).log ++
      [.launched s.requests.length op' target spec], d.Quiet := by
    intro d hd
    rcases List.mem_append.1 hd with hmem | hmem
    · exact quiet_handle d hmem
    · rw [List.mem_singleton.1 hmem]
      trivial
  have hsaid : opSaid op t.log = opSaid op s.log ++
      if op = op' then [(i.connId, .opStarted i.request.req op')] else [] := by
    rw [hlog, opSaid_append, opSaid_append, opSaid_append, opSaid_of_quiet op hquiet,
      opSaid_emittedDeeds, opSaid_replied rfl]
    simp
  have hemitted : emittedBy op t.log = emittedBy op s.log ++ pendingOf op out.1 := by
    rw [hlog, emittedBy_append, emittedBy_append, emittedBy_append, emittedBy_of_quiet op hquiet,
      emittedBy_emittedDeeds hblocks]
    simp [emittedBy]
  have hposted : pendingOf op t.posted = pendingOf op s.posted ++ pendingOf op out.1 :=
    pendingOf_append op s.posted out.1
  by_cases hop : op = op'
  · subst hop
    cases h with
    | born hx =>
      rw [hfresh] at hx
      cases hx
    | unborn _ hs he hp =>
      rw [hs, List.nil_append, if_pos rfl] at hsaid
      rw [he, List.nil_append] at hemitted
      rw [hp, List.nil_append] at hposted
      refine .born (Function.update_self ..)
        (?_ : Underway _ op out.2 i [] (pendingOf op out.1))
      refine ⟨?_, ?_, hemitted, fun _ => hposted.symm, ?_⟩
      · rw [hnext.n]
        exact List.getElem?_concat_length
      · rw [hsaid, hnext.connId]
        rfl
      · rw [hemitted]
        exact hlast
  · rw [if_neg hop, List.append_nil] at hsaid
    have hnone := pendingOf_other hblocks hop
    rw [hnone, List.append_nil] at hemitted hposted
    exact h.same (Function.update_of_ne hop ..) (List.prefix_append ..) hsaid hemitted hposted
      fun _ _ hreach => hreach

/-- **The loop comes to an event**: it is handed over, or nothing is to this
connection any more. -/
theorem event (h : Telling s op) {op' : OpId} {connId : ConnId} {m : Message} {fds : List Fd}
    {carries : List Bytes} {rest : List Block}
    (hposted : s.posted = .event op' connId m fds carries :: rest) (hcan : s.transport.CanAct)
    (hknown : (Block.event op' connId m fds carries).Known s) :
    Telling ({ s with posted := rest }.did [.delivered op' connId m carries (s.Sends connId)])
      op := by
  obtain ⟨x, hx, rfl, hm, -⟩ := hknown
  set t : FrontendState V := FrontendState.did _ _
  have hsaid : opSaid op t.log = opSaid op s.log ++
      if s.Sends x.connId ∧ op = op' then [(x.connId, m)] else [] := by
    have hadd : opSaid op [.delivered op' x.connId m carries (s.Sends x.connId)] = _ :=
      opSaid_delivered hm op _
    simp only [decide_eq_true_eq] at hadd
    exact (opSaid_append op s.log _).trans (congrArg _ hadd)
  have hemitted : emittedBy op t.log = emittedBy op s.log := by
    refine (emittedBy_append op s.log _).trans ?_
    simp [emittedBy]
  have hpending : pendingOf op s.posted = (if op' = op then [m] else []) ++ pendingOf op rest := by
    rw [hposted]
    by_cases hop : op' = op
    · simp [pendingOf, hop]
    · simp [pendingOf, hop]
  by_cases hop : op = op'
  · subst hop
    cases h with
    | unborn hnone =>
      rw [hx] at hnone
      cases hnone
    | @born x' i sent left hx' h =>
      obtain rfl := Option.some.inj (hx.symm.trans hx')
      by_cases hsends : s.Sends x.connId
      · have hleft := h.pending ⟨hcan.1, hsends.2⟩
        rw [hpending, if_pos rfl] at hleft
        refine .born hx (?_ : Underway t op x i (sent ++ [m]) (pendingOf op rest))
        refine ⟨h.request, ?_, ?_, fun _ => rfl, ?_⟩
        · rw [hsaid, if_pos ⟨hsends, rfl⟩, h.said]
          simp
        · rw [hemitted, h.emitted, hleft, List.append_assoc]
        · rw [hemitted]
          exact h.last
      · refine .born hx (?_ : Underway t op x i sent left)
        refine ⟨h.request, ?_, ?_, ?_, ?_⟩
        · rw [hsaid, if_neg fun h => hsends h.1, List.append_nil]
          exact h.said
        · rw [hemitted]
          exact h.emitted
        · intro hreach
          exact absurd ⟨hcan, hreach.2⟩ hsends
        · rw [hemitted]
          exact h.last
  · rw [if_neg fun h => hop h.2, List.append_nil] at hsaid
    rw [if_neg fun h => hop h.symm, List.nil_append] at hpending
    exact h.same rfl (List.prefix_refl _) hsaid hemitted hpending.symm fun _ _ hreach => hreach

end Telling

/-- **All operations are told of in order**, and no posted reply is mistaken
for one of theirs. -/
structure Tells (s : FrontendState V) : Prop where
  telling : ∀ op, Telling s op
  replies : ∀ n connId m, .reply n connId m ∈ s.posted → m.op? = none

namespace Tells

theorem moved (hk : Known s) (hm : Shifted A s t) (h : Tells s) : Tells t where
  telling op := (h.telling op).moved hk hm
  replies n connId m hmem := h.replies n connId m ((hm.mem_posted (by simp)).1 hmem)

/-- A turn that tells of no operation, and posts no events. -/
theorem quiet (h : Tells s) (deeds : List Deed) (blocks : List Block) (hlog : t.log = s.log ++ deeds)
    (hdeeds : ∀ d ∈ deeds, d.Quiet) (hops : t.ops = s.ops) (hrequests : s.requests <+: t.requests)
    (hposted : t.posted = s.posted ++ blocks) (hblocks : ∀ b ∈ blocks, b.Quiet)
    (hreplies : ∀ n connId m, .reply n connId m ∈ blocks → m.op? = none)
    (htransport : t.transport = s.transport) : Tells t where
  telling op := (h.telling op).quiet deeds hlog hdeeds hops hrequests
    (by rw [hposted, pendingOf_append, pendingOf_of_quiet op hblocks, List.append_nil]) htransport
  replies n connId m hmem := by
    rw [hposted] at hmem
    exact (List.mem_append.1 hmem).elim (h.replies n connId m) (hreplies n connId m)

/-- A block that ran, and is no event. -/
theorem ran (h : Tells s) {block : Block} {rest : List Block} (hs : s.posted = block :: rest)
    (hblock : block.Quiet) (deeds : List Deed) (hlog : t.log = s.log ++ deeds)
    (hdeeds : ∀ d ∈ deeds, d.Quiet) (hops : t.ops = s.ops) (hrequests : t.requests = s.requests)
    (hposted : t.posted = rest) (htransport : t.transport = s.transport) : Tells t where
  telling op := (h.telling op).quiet deeds hlog hdeeds hops (by rw [hrequests])
    (by
      have hnone := pendingOf_of_quiet op (List.forall_mem_singleton.2 hblock)
      rw [hposted, hs, ← List.singleton_append, pendingOf_append, hnone, List.nil_append])
    htransport
  replies n connId m hmem := by
    rw [hposted] at hmem
    exact h.replies n connId m (by rw [hs]; exact List.mem_cons_of_mem _ hmem)

/-- What is not handed over any more. -/
theorem stopped (h : Tells s) {block : Block} {rest : List Block} (hs : s.posted = block :: rest)
    (hstopped : s.transport.loopQuiesced = true) : Tells { s with posted := rest } where
  telling op := by
    cases h.telling op with
    | unborn hop hsaid hemitted hpending =>
      refine .unborn hop hsaid hemitted ?_
      rw [hs, ← List.singleton_append, pendingOf_append, List.append_eq_nil_iff] at hpending
      exact hpending.2
    | born hop h =>
      refine .born hop ⟨h.request, h.said, h.emitted, fun hreach => ?_, h.last⟩
      rw [show s.transport.loopQuiesced = false from hreach.1] at hstopped
      cases hstopped
  replies n connId m hmem := h.replies n connId m (by rw [hs]; exact List.mem_cons_of_mem _ hmem)

/-- The blocks of an emission reply to nobody. -/
theorem emitted (h : Tells s) {op : OpId} {x : Operation} (hx : s.ops op = some x)
    (anonFdFromBytes : Bytes → Option Fd) (es : List Emission) :
    Tells (s.emitted op (emitAll anonFdFromBytes op x es)) where
  telling op' := (h.telling op').emitted hx anonFdFromBytes es
  replies n connId m hmem := by
    rcases List.mem_append.1 hmem with hold | hnew
    · exact h.replies n connId m hold
    · exact ((from_emitAll anonFdFromBytes op es x).2 _ hnew).elim

/-- **A turn keeps it.** -/
theorem turn (h : Tells s) (hk : Known s) {input : FrontendInput}
    (hturn : FrontendTurn A s input t) : Tells t := by
  -- a dispatch that launches nothing
  have hdispatched : ∀ {o : Outside} {i : Inbound} {deeds : List Deed} {u : FrontendState V},
      u.log = s.log ++ ((handle A o s s.requests.length i).log ++ deeds) →
      (∀ d ∈ deeds, d.Quiet) → u.requests = s.requests ++ [i] → u.ops = s.ops →
      u.posted = s.posted → u.transport = s.transport → Tells u := by
    intro o i deeds u hlog hdeeds hrequests hops hposted htransport
    refine h.quiet _ [] hlog (fun d hd => ?_) hops (by rw [hrequests]; exact List.prefix_append ..)
      (by rw [hposted, List.append_nil]) (by simp) (by simp) htransport
    exact (List.mem_append.1 hd).elim (quiet_handle d) (hdeeds d)
  cases hturn with
  | idle => exact h
  | replied hi hsaying =>
    exact hdispatched (List.append_assoc ..) (List.forall_mem_singleton.2 hsaying.op?) rfl rfl rfl rfl
  | @changed event o i hi x hok =>
    refine hdispatched (List.append_assoc ..) (fun d hd => ?_) rfl rfl rfl rfl
    rcases List.mem_cons.1 hd with rfl | hd
    · trivial
    · rw [List.mem_singleton.1 hd]
      exact (reply_run x i.request.req s.store).2
  | @launched event o i hi target spec onSignArtifact hok op early hlaunched hfresh =>
    refine ⟨fun op' => (h.telling op').launched hfresh, fun n connId m hmem => ?_⟩
    rcases List.mem_append.1 hmem with hold | hnew
    · exact h.replies n connId m hold
    · exact ((from_emitAll o.anonFdFromBytes op early _).2 _ hnew).elim
  | asked hi hok hcopy hfree =>
    exact hdispatched (List.append_assoc ..) (List.forall_mem_singleton.2 trivial) rfl rfl rfl rfl
  | brokered hi hok =>
    exact hdispatched (List.append_assoc ..) (List.forall_mem_singleton.2 trivial) rfl rfl rfl rfl
  | @answer idx verdict ask hask =>
    refine h.quiet [.answered ask.n verdict] _ rfl (List.forall_mem_singleton.2 trivial) rfl
      (List.prefix_refl _) rfl (fun b hb => ?_) (fun n connId m hmem => ?_) rfl
    · split at hb
      · rw [List.mem_singleton.1 hb]
        trivial
      · cases hb
    · split at hmem
      · simp at hmem
      · cases hmem
  | emit hx e anonFdFromBytes => exact h.emitted hx anonFdFromBytes [e]
  | @broker idx result call hcall =>
    refine h.quiet [] _ (List.append_nil _).symm (by simp) rfl (List.prefix_refl _) rfl
      (List.forall_mem_singleton.2 trivial) (fun n connId m hmem => ?_) rfl
    obtain ⟨-, -, rfl⟩ : n = call.n ∧ connId = call.connId ∧
        m = FrontendState.brokerReply call.req result := by simpa using hmem
    exact (reply_broker call.req result).2
  | due hop =>
    exact h.quiet [] _ (List.append_nil _).symm (by simp) rfl (List.prefix_refl _) rfl
      (List.forall_mem_singleton.2 trivial) (by simp) rfl
  | @dropped o block rest hposted hwhy =>
    rcases hwhy with hstopped | ⟨-, -, hevent⟩
    · exact h.stopped hposted hstopped
    · refine h.ran hposted ?_ [] (List.append_nil _).symm (by simp) rfl rfl rfl rfl
      cases block with
      | event op connId m fds carries => exact absurd rfl (hevent op connId m fds carries)
      | _ => trivial
  | @reply o n connId m rest hposted hcan =>
    have hop := h.replies n connId m (by rw [hposted]; exact List.mem_cons_self)
    exact h.ran hposted trivial _ rfl (List.forall_mem_singleton.2 hop) rfl rfl rfl rfl
  | @event o op connId m fds carries rest hposted hcan =>
    refine ⟨fun op' => (h.telling op').event hposted hcan (hk.pop hposted).1, fun n c m' hmem => ?_⟩
    exact h.replies n c m' (by rw [hposted]; exact List.mem_cons_of_mem _ hmem)
  | @confirmed o ask rest hposted hcan halive =>
    refine h.ran hposted trivial _ rfl (fun d hd => ?_) rfl rfl rfl rfl
    rcases List.mem_cons.1 hd with rfl | hd
    · trivial
    · rw [List.mem_singleton.1 hd]
      exact (reply_run ask.apply ask.req s.store).2
  | declined hposted hcan halive hverdict =>
    exact h.ran hposted trivial _ rfl (List.forall_mem_singleton.2 rfl) rfl rfl rfl rfl
  | stashed hposted hcan halive =>
    exact h.ran hposted trivial _ rfl (List.forall_mem_singleton.2 trivial) rfl rfl rfl rfl
  | pruned hposted hcan halive =>
    exact h.ran hposted trivial _ rfl (List.forall_mem_singleton.2 trivial) rfl rfl rfl rfl
  | expired hposted hcan halive =>
    exact h.ran hposted trivial _ rfl (List.forall_mem_singleton.2 trivial) rfl rfl rfl rfl
  | evicted hposted hcan halive =>
    exact h.ran hposted trivial _ rfl (List.forall_mem_singleton.2 trivial) rfl rfl rfl rfl
  | destroy =>
    exact h.quiet [] [] (List.append_nil _).symm (by simp) rfl (List.prefix_refl _)
      (List.append_nil _).symm (by simp) (by simp) rfl

end Tells

theorem closed_tells : Closed A fun s => (Known s ∧ Tells s) ∧ Pruned s := by
  have htells : Closed A fun s => Known s ∧ Tells s := by
    refine closed_known.along (fun store => ?_) (fun s t _ _ hm hk h => h.moved hk hm)
      fun s input t _ hturn hk h => h.turn hk hturn
    exact ⟨fun op => .unborn rfl rfl rfl rfl, by simp [FrontendState.start]⟩
  refine htells.along (fun store => by simp [Pruned, FrontendState.start]) ?_
    fun s input t _ hturn hk h => h.turn hk.1 hturn
  intro s t _ _ hm _ h op hop
  rw [hm.log] at hop
  rw [hm.opOwners]
  exact h op hop

/-! ## The frames of an operation -/

/-- The frames of an operation that a connection was handed. -/
def FrontendState.framesOf (s : FrontendState V) (op : OpId) (c : ConnId) : List Message :=
  (mailIn (s.transport.seen c)).filter fun m => m.op? = some op

theorem mailFor_filter (c : ConnId) (p : Message → Bool) (mail : List (ConnId × Message)) :
    (mailFor c mail).filter p = mailFor c (mail.filter fun e => p e.2) := by
  induction mail with
  | nil => rfl
  | cons e mail ih =>
    rw [← List.singleton_append, mailFor_append, List.filter_append, List.filter_append,
      mailFor_append, ih]
    refine congrArg (· ++ _) ?_
    by_cases hc : e.1 = c <;> cases hp : p e.2 <;> simp [mailFor, hc, hp]

theorem framesOf_eq (h : (frontend A).Reachable s) (op : OpId) (c : ConnId) :
    s.framesOf op c = mailFor c (opSaid op s.log) := by
  unfold FrontendState.framesOf opSaid
  rw [reachable_mail h, mailFor_filter]

/-- **The frames of an operation are in order.** -/
structure FramesInOrder (s : FrontendState V) (op : OpId) (x : Operation) (i : Inbound) : Prop where
  /-- the reply that it started, then a beginning of the events in the order
  of their emission, and the rest of them are posted as long as the
  connection and the loop are there -/
  frames : ∃ sent rest, s.framesOf op x.connId = .opStarted i.request.req op :: sent ∧
    emittedBy op s.log = sent ++ rest ∧ (s.Reaches x.connId → rest = pendingOf op s.posted)
  /-- no other connection has any -/
  elsewhere : ∀ c, c ≠ x.connId → s.framesOf op c = []
  /-- nothing is emitted behind the event that says it finished -/
  last : ∀ before m after, emittedBy op s.log = before ++ m :: after → IsFinished m = true → after = []
  /-- and when its finished sink ran, it has no owner -/
  pruned : .pruned op ∈ s.log → s.opOwners op = none

/-- **The order of an operation's events**, in every run. -/
theorem operation_events (h : (frontend A).Reachable s) {op : OpId} {x : Operation}
    (hx : s.ops op = some x) :
    ∃ i, s.requests[x.n]? = some i ∧ x.connId = i.connId ∧ FramesInOrder s op x i := by
  obtain ⟨⟨hk, htells⟩, hpruned⟩ := closed_tells.reachable h
  cases htells.telling op with
  | unborn hnone =>
    rw [hx] at hnone
    cases hnone
  | @born x' i sent rest hx' hunder =>
    obtain rfl := Option.some.inj (hx.symm.trans hx')
    obtain ⟨j, hj, hof⟩ := hk.ops op x hx
    obtain rfl := Option.some.inj (hunder.request.symm.trans hj)
    refine ⟨i, hj, hof.connId, ⟨sent, rest, ?_, hunder.emitted, hunder.pending⟩, fun c hc => ?_,
      hunder.last.last, hpruned op⟩
    · rw [framesOf_eq h, hunder.said, mailFor_map, if_pos rfl]
    · rw [framesOf_eq h, hunder.said, mailFor_map, if_neg hc.symm]

/-- A client signs. The worker shows its progress before the launch returns,
and the client leaves before the loop comes to the last event. -/
def signsInProgress : List FrontendInput :=
  [connects, insertsCard] ++ sendsRequest 1 [3, 7] [4] (plainOutside 5 [.progress 1]) ++
    [.emit 5 (.result (.artifact [1]) ⟨"pades", "b-b", false, true⟩) fun _ => some 9,
      .emit 5 (.finished 0 0 "" "") fun _ => none, .run quietOutside, .run quietOutside,
      .run quietOutside] ++ leaves 1

theorem operation_events_signsInProgress :
    ∃ s x i, (frontend plainAgent).run (.start 0) signsInProgress = some s ∧ s.ops 5 = some x ∧
      FramesInOrder s 5 x i ∧
      s.framesOf 5 1 = [.opStarted 7 5, .opProgress 5 1, .opResultReady 5 (.sign 0)] ∧
      pendingOf 5 s.posted = [.opFinished 5 0 0 "" ""] := by
  have horder : ∀ s x, (frontend plainAgent).run (.start 0) signsInProgress = some s →
      s.ops 5 = some x → ∃ i, s.requests[x.n]? = some i ∧ x.connId = i.connId ∧
        FramesInOrder s 5 x i :=
    fun s x hrun hx => operation_events ⟨_, _, ⟨0, rfl⟩, hrun⟩ hx
  obtain ⟨i, -, -, hinorder⟩ := horder _ _ rfl rfl
  exact ⟨_, _, i, rfl, rfl, hinorder, rfl, rfl⟩

end Frontend

end LibreDarwin
