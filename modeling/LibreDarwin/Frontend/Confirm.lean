import LibreDarwin.Frontend.Owned

/-!
# The person's confirmation

Three verbs change what is trusted, and each of them changes it in the
continuation of a confirmation. Every change in the log is read back to the
person's yes, the question, and the two gates before it
(`ConfirmedBy`); and a step that is not such a continuation leaves the
trust values alone. Of the questions that stand unanswered, no two are one
connection's (`Flight`).
-/

namespace LibreDarwin

namespace Frontend

open Wire Transport OperationChannel Script
open Std (ExtTreeMap)

variable {V Trust : Type*} {A : Agent V Trust} {o : Outside} {s t : FrontendState V}

/-- **An effect of the trust tier**: a setter of the authorities or of the
lists, a reset of a key of that tier, and what is done with an offered
master list, the read of it included. -/
def Effect.IsTrust (C : AgentCore V Trust) : Effect → Prop
  | .set (.setTsaUrls _) | .set (.setTslSources _) => True
  | .set write => C.mutability write.key = some .dbusMutableTrust
  | .resetKey key => C.mutability key = some .dbusMutableTrust
  | .readMasterList _ | .importMasterList _ _ => True

/-- The key an effect is about. -/
def Effect.key : Effect → String
  | .set write => write.key
  | .resetKey key => key
  | .readMasterList _ | .importMasterList _ _ => cscaAnchorState

/-- Whether an effect changes what is stored; a read does not. -/
def Effect.changes : Effect → Bool
  | .readMasterList _ => false
  | _ => true

theorem of_map_ok {E α β : Type} {f : α → β} {x : Except E α} {b : β} (h : f <$> x = .ok b) :
    ∃ a, f a = b := by
  cases x with
  | error e => cases h
  | ok a => exact ⟨a, Except.ok.inj h⟩

/-- The setter a value calls is the one of its key. -/
theorem key_configWrite {msg : SetConfig} {write : ConfigWrite} (h : configWrite msg = .ok write) :
    write.key = msg.key := by
  unfold configWrite at h
  split_ifs at h with hlevel hreason hlocation hurls hsources
  · obtain ⟨level, rfl⟩ := of_map_ok h
    exact hlevel.symm
  · obtain ⟨reason, rfl⟩ := of_map_ok h
    exact hreason.symm
  · obtain ⟨location, rfl⟩ := of_map_ok h
    exact hlocation.symm
  · obtain ⟨urls, rfl⟩ := of_map_ok h
    exact hurls.symm
  · obtain ⟨sources, rfl⟩ := of_map_ok h
    exact hsources.symm

/-- **What a change does** is about its key, and changes one thing at
most. -/
theorem Apply.Does.effects {x : Apply} {effects : List Effect} (h : x.Does effects) :
    (∀ e ∈ effects, e.key = x.key) ∧ (effects.filter Effect.changes).length ≤ 1 := by
  cases x with
  | configWrite msg =>
    obtain rfl : effects = msg.effects := h
    unfold SetConfig.effects
    cases hwrite : Frontend.configWrite msg with
    | error code => simp
    | ok write =>
      refine ⟨fun e he => ?_, Nat.le_refl 1⟩
      rw [List.mem_singleton.1 he]
      exact key_configWrite hwrite
  | configReset msg =>
    obtain rfl : effects = [.resetKey msg.key] := h
    refine ⟨fun e he => ?_, Nat.le_refl 1⟩
    rw [List.mem_singleton.1 he]
    rfl
  | importAnchors held =>
    match effects, h with
    | [.readMasterList list], _ =>
      refine ⟨fun e he => ?_, Nat.zero_le 1⟩
      rw [List.mem_singleton.1 he]
      rfl
    | [.readMasterList list, .importMasterList bytes recorded], _ =>
      refine ⟨fun e he => ?_, Nat.le_refl 1⟩
      rcases List.mem_cons.1 he with rfl | he
      · rfl
      · rw [List.mem_singleton.1 he]
        rfl

/-! ## What came before a change -/

/-- **A change is a person's**: the effects of the trust tier come after
the two gates, the question about their key and the yes, all of the one
request `n`, on whose connection and under whose number the change is
made; no change was made for it before, and it changes one thing at most. -/
structure ConfirmedBy (C : AgentCore V Trust) (requests : List Inbound) (before : List Deed)
    (n : ℕ) (connId : ConnId) (req : ℕ) (confirmed : Bool) (effects : List Effect) : Prop where
  person : ∀ e ∈ effects, e.IsTrust C → confirmed = true ∧
    [.authorized n .configureTrust .granted, .allowed n true, .asked n connId req e.key,
      .answered n .ok].Sublist before
  request : ∃ i, requests[n]? = some i ∧ connId = i.connId ∧ req = i.request.req
  once : ∀ connId' req' confirmed' effects', .applied n connId' req' confirmed' effects' ∉ before
  single : (effects.filter Effect.changes).length ≤ 1

/-- An effect of the trust tier is about a key of that tier, or an offered
list. -/
theorem Effect.IsTrust.tier {C : AgentCore V Trust} (hC : C.Lawful) {e : Effect} (h : e.IsTrust C)
    {x : Apply} {effects : List Effect} (hx : x.Does effects) (he : e ∈ effects) :
    C.mutability x.key = some .dbusMutableTrust ∨ ∃ held, x = .importAnchors held := by
  rw [← hx.effects.1 e he]
  cases e with
  | set write =>
    left
    cases write with
    | setTsaUrls urls => exact hC.tsaUrls
    | setTslSources sources => exact hC.tslSources
    | setDefaultLevel level => exact h
    | setDefaultReason reason => exact h
    | setDefaultLocation location => exact h
  | resetKey key => exact .inl h
  | readMasterList list =>
    right
    cases x with
    | importAnchors held => exact ⟨held, rfl⟩
    | configWrite msg =>
      obtain rfl : effects = msg.effects := hx
      unfold SetConfig.effects at he
      split at he <;> simp at he
    | configReset msg =>
      obtain rfl : effects = [.resetKey msg.key] := hx
      simp at he
  | importMasterList bytes recorded =>
    right
    cases x with
    | importAnchors held => exact ⟨held, rfl⟩
    | configWrite msg =>
      obtain rfl : effects = msg.effects := hx
      unfold SetConfig.effects at he
      split at he <;> simp at he
    | configReset msg =>
      obtain rfl : effects = [.resetKey msg.key] := hx
      simp at he

/-- An import of a list is gated, whatever the keys are. -/
theorem gate_of_import {C : AgentCore V Trust} {i : Inbound} {held : Fd}
    (h : i.change? = some (.importAnchors held)) :
    i.request.body.gate C = some .configureTrust := by
  unfold Inbound.change? at h
  cases hbody : i.request.body with
  | importCscaMasterList msg => rfl
  | _ =>
    rw [hbody] at h
    simp at h

/-- **Every change in the log is accounted for.** -/
theorem confirmedBy_of_lives (hC : A.core.Lawful) (h : Lives A s) {before after : List Deed} {n : ℕ}
    {connId : ConnId} {req : ℕ} {confirmed : Bool} {effects : List Effect}
    (hlog : s.log = before ++ .applied n connId req confirmed effects :: after) :
    ConfirmedBy A.core s.requests before n connId req confirmed effects := by
  obtain ⟨i, φ, φ', hi, hrun, hstep, -⟩ := Ledger.Kept.step_at h hlog rfl
  obtain ⟨happlies, rfl, rfl, ⟨x, hx, hdoes⟩, -⟩ := next_applied.1 (life_step.1 hstep).2
  have hx : i.change? = some x := hx
  have hsub : ((lives A).own n before).Sublist before := List.filter_sublist
  have hlooked : ∀ {looked rest : List Deed}, (lives A).own n before = looked ++ rest →
      (∀ d ∈ looked, d.IsLookup) → (∀ c r b es, .applied n c r b es ∉ rest) →
      ∀ c r b es, .applied n c r b es ∉ before := by
    intro looked rest hown hlookup hrest c r b es hmem
    have hmine : .applied n c r b es ∈ (lives A).own n before := (lives A).mem_own.2 ⟨hmem, rfl⟩
    rw [hown] at hmine
    rcases List.mem_append.1 hmine with hmem | hmem
    · exact hlookup _ hmem
    · exact hrest c r b es hmem
  cases confirmed with
  | true =>
    obtain rfl : φ = .answered .ok := happlies
    obtain ⟨looked, key, hown, hlookup, -, hkey⟩ := run_answered hrun
    rw [hx] at hkey
    obtain rfl : x.key = key := Option.some.inj hkey
    refine ⟨fun e he _ => ⟨rfl, ?_⟩, ⟨i, hi, rfl, rfl⟩, hlooked hown hlookup (by simp),
      hdoes.effects.2⟩
    rw [hdoes.effects.1 e he]
    have hmine : ([.authorized n .configureTrust .granted, .allowed n true,
        .asked n i.connId i.request.req x.key, .answered n .ok] : List Deed).Sublist
        ((lives A).own n before) := by
      rw [hown]
      exact List.sublist_append_right looked _
    exact hmine.trans hsub
  | false =>
    obtain ⟨hφ, htier⟩ : φ = .authorized .configure ∧
      i.change?.map (fun x => A.core.mutability x.key) = some (some .dbusMutable) := happlies
    subst hφ
    obtain ⟨looked, hown, hlookup, haction⟩ := run_authorized hrun
    rw [hx, Option.map_some, Option.some.injEq] at htier
    refine ⟨fun e he htrust => ?_, ⟨i, hi, rfl, rfl⟩, hlooked hown hlookup (by simp),
      hdoes.effects.2⟩
    -- a change that is made at once is of another tier, and is no import
    rcases htrust.tier hC hdoes he with hkey | ⟨held, rfl⟩
    · rw [htier] at hkey
      cases hkey
    · rw [gate_of_import (C := A.core) hx] at haction
      cases haction

/-! ## What leaves the trust values alone -/

/-- A change of a key outside the trust tier leaves the trust values. -/
theorem trust_run (hC : A.core.Lawful) {x : Apply} (hx : ∀ held, x ≠ .importAnchors held)
    (htier : A.core.mutability x.key = some .dbusMutable) (req : ℕ) (store : V) :
    A.core.trust (x.run A o req store).store = A.core.trust store := by
  cases x with
  | configWrite msg =>
    simp only [Apply.run, applyConfigWrite]
    cases hwrite : configWrite msg with
    | error code => rfl
    | ok write =>
      refine hC.set write store ?_
      rw [key_configWrite hwrite]
      exact htier
  | configReset msg => exact hC.resetKey msg.key store htier
  | importAnchors held => exact absurd rfl (hx held)

/-- The step that may change the trust values: the loop comes to a person's
yes while there is a frontend. -/
def TakesYes (s : FrontendState V) (input : FrontendInput) : Prop :=
  ∃ o ask rest, input = .run o ∧ s.posted = .answered ask .ok :: rest ∧ s.alive = true ∧
    s.transport.loopQuiesced = false

/-- **Any other step leaves them.** -/
theorem trust_step (hC : A.core.Lawful) (hs : (transport A.wire).Reachable s.transport)
    {input : FrontendInput} (h : s.step A input = some t) (hyes : ¬ TakesYes s input) :
    A.core.trust t.store = A.core.trust s.store := by
  obtain ⟨s₀, s', hbefore, -, hturn, hends⟩ := step_turn hs h
  rw [hends.moved.store, ← hbefore.store]
  cases hturn with
  | @changed event o i hi x hok =>
    obtain ⟨φ, hrun, rfl, hx, htier⟩ := permitted_of_ok hok
    refine trust_run hC ?_ htier i.request.req s₀.store
    rintro held rfl
    obtain ⟨-, -, -, haction⟩ := run_authorized hrun
    rw [gate_of_import (C := A.core) hx] at haction
    cases haction
  | @confirmed o ask rest hposted hcan halive =>
    obtain ⟨rest', hposted'⟩ := hbefore.head hposted (by simp)
    exact absurd ⟨o, ask, rest', rfl, hposted', hbefore.alive ▸ halive, hbefore.going hcan.1⟩ hyes
  | _ => rfl

/-- **Trust changes need the person.** -/
theorem trust_needs_person (hC : A.core.Lawful) (h : (frontend A).Reachable s) :
    (∀ before n connId req confirmed effects after,
      s.log = before ++ .applied n connId req confirmed effects :: after →
        ConfirmedBy A.core s.requests before n connId req confirmed effects) ∧
    (∀ before n verdict after, s.log = before ++ .answered n verdict :: after →
      ∀ verdict', .answered n verdict' ∉ before) ∧
    ∀ input t, s.step A input = some t → ¬ TakesYes s input →
      A.core.trust t.store = A.core.trust s.store := by
  have hlives := closed_lives.reachable h
  refine ⟨fun before n connId req confirmed effects after hlog => confirmedBy_of_lives hC hlives hlog,
    fun before n verdict after hlog verdict' hmem => ?_,
    fun input t hst hyes => trust_step hC (reachable_transport h) hst hyes⟩
  obtain ⟨i, φ, φ', hi, hrun, hstep, -⟩ := Ledger.Kept.step_at hlives hlog rfl
  obtain ⟨rfl, -⟩ := next_answered.1 (life_step.1 hstep).2
  obtain ⟨looked, key, hown, hlookup, -, -⟩ := run_asked hrun
  have hmine : .answered n verdict' ∈ (lives A).own n before := (lives A).mem_own.2 ⟨hmem, rfl⟩
  rw [hown] at hmine
  rcases List.mem_append.1 hmine with hmem | hmem
  · exact hlookup _ hmem
  · simp at hmem

/-- A client changes a trust value: it asks, the person says yes, and the
loop comes to the answer. -/
def changesTrust : List FrontendInput :=
  [connects] ++ sendsRequest 1 [2, 7] [] quietOutside ++ [.answer 0 .ok, .run quietOutside]

theorem plainCore_lawful : plainCore.Lawful where
  tsaUrls := rfl
  tslSources := rfl
  set w v h := by
    by_cases hkey : w.key = "DefaultLevel"
    · simp [plainCore, hkey]
    · simp [plainCore, hkey] at h
  resetKey key v h := by
    by_cases hkey : key = "DefaultLevel"
    · simp [plainCore, hkey]
    · simp [plainCore, hkey] at h

theorem trust_needs_person_changesTrust :
    ∃ s before, (frontend plainAgent).run (.start 0) changesTrust = some s ∧ s.store = 1 ∧
      s.log = before ++ [.applied 0 1 7 true [.set (.setTsaUrls [])], .replied 0 1 (.ack 7) none true] ∧
      ConfirmedBy plainCore s.requests before 0 1 7 true [.set (.setTsaUrls [])] := by
  have hperson : ∀ s before after, (frontend plainAgent).run (.start 0) changesTrust = some s →
      s.log = before ++ .applied 0 1 7 true [.set (.setTsaUrls [])] :: after →
      ConfirmedBy plainCore s.requests before 0 1 7 true [.set (.setTsaUrls [])] :=
    fun s before after hrun hlog =>
      (trust_needs_person plainCore_lawful ⟨_, _, ⟨0, rfl⟩, hrun⟩).1 _ _ _ _ _ _ after hlog
  exact ⟨_, [.authorized 0 .configureTrust .granted, .allowed 0 true, .asked 0 1 7 "TsaUrls",
    .answered 0 .ok], rfl, rfl, rfl, hperson _ _ _ rfl rfl⟩

/-! ## The questions that stand -/

/-- The question a posted answer is to. -/
def Block.ask? : Block → Option Ask
  | .answered ask _ => some ask
  | _ => none

/-- The questions whose continuation has not run: those a person has not
answered, and those whose answer is posted. -/
def FrontendState.flying (s : FrontendState V) : List Ask := s.asks ++ s.posted.filterMap Block.ask?

/-- **No connection has two questions.** Each was raised by a connection of
its own, which has its entry in the set as long as it is open. -/
structure Flight (s : FrontendState V) : Prop where
  nodup : (s.flying.map Ask.connId).Nodup
  caller : ∀ ask ∈ s.flying, ask.caller = callerToken ask.connId
  used : ∀ ask ∈ s.flying, ask.connId < s.transport.nextConnId
  waits : ∀ ask ∈ s.flying, ask.connId ∈ s.transport.connections → ask.caller ∈ s.confirmsInFlight

namespace Flight

/-- Questions may end, and the set keep what the others have in it. -/
theorem fewer (h : Flight s) {flown : List Ask} (hperm : t.flying.Perm flown)
    (hsub : flown.Sublist s.flying) (htransport : t.transport = s.transport)
    (hwaits : ∀ ask ∈ t.flying, ask.connId ∈ s.transport.connections →
      ask.caller ∈ s.confirmsInFlight → ask.caller ∈ t.confirmsInFlight) : Flight t := by
  have hmem : ∀ ask ∈ t.flying, ask ∈ s.flying := fun ask hask => hsub.subset (hperm.subset hask)
  refine ⟨?_, fun ask hask => h.caller ask (hmem ask hask), ?_, ?_⟩
  · have hnodup := h.nodup.sublist (hsub.map Ask.connId)
    exact (hperm.map Ask.connId).nodup_iff.2 hnodup
  · intro ask hask
    rw [htransport]
    exact h.used ask (hmem ask hask)
  · intro ask hask hopen
    rw [htransport] at hopen
    exact hwaits ask hask hopen (h.waits ask (hmem ask hask) hopen)

/-- Blocks that answer no question leave all as it is. -/
theorem quiet (h : Flight s) (hasks : t.asks = s.asks)
    (hposted : t.posted.filterMap Block.ask? = s.posted.filterMap Block.ask?)
    (hconfirms : t.confirmsInFlight = s.confirmsInFlight) (htransport : t.transport = s.transport) :
    Flight t := by
  have hflying : t.flying = s.flying := by
    unfold FrontendState.flying
    rw [hasks, hposted]
  refine h.fewer (.refl _) (by rw [hflying]) htransport fun ask _ _ hwaits => ?_
  rw [hconfirms]
  exact hwaits

theorem moved (h : Flight s) (hm : Shifted A s t) : Flight t := by
  have hflying : t.flying = s.flying := by
    obtain ⟨gone, hposted, -⟩ := hm.posted
    have hnone : (gone.map Block.evictClient).filterMap Block.ask? = [] := by
      rw [List.filterMap_map, List.filterMap_eq_nil_iff]
      intro caller _
      rfl
    unfold FrontendState.flying
    rw [hm.asks, hposted, List.filterMap_append, hnone, List.append_nil]
  refine ⟨by rw [hflying]; exact h.nodup, by rw [hflying]; exact h.caller, ?_, ?_⟩
  · rw [hflying]
    intro ask hask
    exact Nat.lt_of_lt_of_le (h.used ask hask) hm.nextConnId_le
  · rw [hflying, hm.confirmsInFlight]
    intro ask hask hopen
    -- an id that was used is never a new connection's
    refine h.waits ask hask ?_
    by_contra hgone
    exact (hm.gone (h.used ask hask) hgone).2 hopen

/-- A posted answer comes to its continuation. -/
theorem landed (h : Flight s) {ask : Ask} {verdict : PromptReplyStatus} {rest : List Block}
    (hposted : s.posted = .answered ask verdict :: rest) {store : V} {deeds : List Deed} :
    Flight ({ s with posted := rest
                     confirmsInFlight := s.confirmsInFlight.filter fun c => c ≠ ask.caller
                     store := store }.did deeds) := by
  have hflying : s.flying.Perm (ask :: (s.asks ++ rest.filterMap Block.ask?)) := by
    unfold FrontendState.flying
    rw [hposted]
    exact List.perm_middle
  have hnodup := (hflying.map Ask.connId).nodup_iff.1 h.nodup
  rw [List.map_cons, List.nodup_cons] at hnodup
  have hmine : ask ∈ s.flying := hflying.symm.subset List.mem_cons_self
  refine h.fewer (.refl _) ?_ rfl fun other hother _ hwaits => ?_
  · unfold FrontendState.flying
    rw [hposted]
    exact (List.sublist_cons_self ask _).append_left s.asks
  · -- the entry that leaves is not another question's
    have hne : other.connId ≠ ask.connId := fun heq =>
      hnodup.1 (heq ▸ List.mem_map_of_mem hother)
    have hcaller : other.caller ≠ ask.caller := by
      rw [h.caller other (hflying.symm.subset (List.mem_cons_of_mem _ hother)), h.caller ask hmine]
      exact fun heq => hne (callerToken_injective heq)
    exact List.mem_filter.2 ⟨hwaits, by simpa using hcaller⟩

/-- The blocks of an emission answer no question. -/
theorem ask_of_from {op : OpId} {x : Operation} {blocks : List Block}
    (h : ∀ block ∈ blocks, block.From op x) : blocks.filterMap Block.ask? = [] := by
  rw [List.filterMap_eq_nil_iff]
  intro block hblock
  have hfrom := h block hblock
  cases block with
  | answered ask verdict => exact hfrom.elim
  | _ => rfl

theorem emitted (h : Flight s) {op : OpId} {y : Operation} {blocks : List Block}
    (hblocks : ∀ block ∈ blocks, block.From op y) : Flight (s.emitted op (blocks, y)) := by
  refine h.quiet rfl ?_ rfl rfl
  have hnone := ask_of_from hblocks
  simp [FrontendState.emitted, FrontendState.did, hnone]

/-- **A turn keeps it.** -/
theorem turn (h : Flight s) (hs : (transport A.wire).Reachable s.transport) (hk : Known s)
    {input : FrontendInput} (hturn : FrontendTurn A s input t) : Flight t := by
  cases hturn with
  | idle => exact h
  | replied hi hsaying => exact h.quiet rfl rfl rfl rfl
  | changed hi hok => exact h.quiet rfl rfl rfl rfl
  | @launched event o i hi target spec onSignArtifact hok op early hlaunched hfresh =>
    have hblocks := (from_emitAll o.anonFdFromBytes op early
      ⟨s.requests.length, i.connId, i.caller, onSignArtifact, false⟩).2
    have hnone := ask_of_from hblocks
    refine h.quiet rfl ?_ rfl rfl
    simp [FrontendState.emitted, FrontendState.did, FrontendState.handled, hnone]
  | @asked event o i hi x hok copy hcopy hfree =>
    set ask := Ask.mk s.requests.length i.connId i.request.req i.caller
      (confirmAction copy (o.requesterLabel i.caller) x.key) x
    have hopen : i.connId ∈ s.transport.connections := hi.sends.2
    have hperm : ∀ u : FrontendState V, u.asks = s.asks ++ [ask] → u.posted = s.posted →
        u.flying.Perm (ask :: s.flying) := by
      intro u hasks hposted
      unfold FrontendState.flying
      rw [hasks, hposted, List.append_assoc]
      exact List.perm_middle
    -- a question of this connection would have its entry in the set
    have hnew : i.connId ∉ s.flying.map Ask.connId := by
      intro hmem
      obtain ⟨old, hold, hconn⟩ := List.mem_map.1 hmem
      have hwaits := h.waits old hold (hconn ▸ hopen)
      rw [h.caller old hold, hconn, ← hi.caller] at hwaits
      exact hfree hwaits
    have hnodup : ((ask :: s.flying).map Ask.connId).Nodup :=
      List.nodup_cons.2 ⟨hnew, h.nodup⟩
    have hasked := hperm ({ s.handled A o i with
      confirmsInFlight := i.caller :: s.confirmsInFlight
      asks := s.asks ++ [ask] }.did [.asked s.requests.length i.connId i.request.req x.key]) rfl rfl
    refine ⟨(hasked.map Ask.connId).nodup_iff.2 hnodup, fun a ha => ?_, fun a ha => ?_,
      fun a ha ha' => ?_⟩
    all_goals rcases List.mem_cons.1 (hasked.subset ha) with rfl | hold
    · exact hi.caller
    · exact h.caller a hold
    · exact used_of_mem (reachable_orderly hs) hopen
    · exact h.used a hold
    · exact List.mem_cons_self
    · exact List.mem_cons_of_mem _ (h.waits a hold ha')
  | brokered hi hok => exact h.quiet rfl rfl rfl rfl
  | @answer idx verdict ask hask =>
    cases halive : s.alive with
    | true =>
      have hperm : (s.asks.eraseIdx idx ++
          (s.posted ++ [Block.answered ask verdict]).filterMap Block.ask?).Perm s.flying := by
        rw [List.filterMap_append, ← List.append_assoc]
        refine List.perm_append_comm.trans ?_
        exact ((perm_eraseIdx hask).append_right (s.posted.filterMap Block.ask?)).symm
      exact h.fewer hperm (List.Sublist.refl _) rfl fun _ _ _ hwaits => hwaits
    | false =>
      refine h.fewer (.refl _) ?_ rfl fun _ _ _ hwaits => hwaits
      simp [FrontendState.flying, FrontendState.did, List.eraseIdx_sublist]
  | @emit op x hx e anonFdFromBytes =>
    exact h.emitted (from_emitAll anonFdFromBytes op [e] x).2
  | broker hcall =>
    refine h.quiet rfl ?_ rfl rfl
    simp [Block.ask?]
  | due hop =>
    refine h.quiet rfl ?_ rfl rfl
    simp [Block.ask?]
  | @dropped o block rest hposted hwhy =>
    refine h.fewer (.refl _) ?_ rfl fun _ _ _ hwaits => hwaits
    unfold FrontendState.flying
    rw [hposted]
    exact ((List.sublist_cons_self block rest).filterMap _).append_left s.asks
  | reply hposted hcan => exact h.quiet rfl (by rw [hposted]; rfl) rfl rfl
  | event hposted hcan => exact h.quiet rfl (by rw [hposted]; rfl) rfl rfl
  | confirmed hposted hcan halive => exact h.landed hposted
  | declined hposted hcan halive hverdict => exact h.landed hposted
  | stashed hposted hcan halive => exact h.quiet rfl (by rw [hposted]; rfl) rfl rfl
  | pruned hposted hcan halive => exact h.quiet rfl (by rw [hposted]; rfl) rfl rfl
  | expired hposted hcan halive => exact h.quiet rfl (by rw [hposted]; rfl) rfl rfl
  | @evicted o caller rest hposted hcan halive =>
    have hflying : s.flying = s.asks ++ rest.filterMap Block.ask? := by
      unfold FrontendState.flying
      rw [hposted]
      rfl
    obtain ⟨c, rfl, hused, hgone⟩ := (hk.pop hposted).1
    refine h.fewer (.refl _) (by rw [hflying]; exact .refl _) rfl fun ask hask hopen hwaits => ?_
    -- who is evicted is gone, and the question's connection is open
    have hmem : ask ∈ s.flying := hflying ▸ hask
    have hne : ask.caller ≠ callerToken c := by
      rw [h.caller ask hmem]
      rintro heq
      rw [callerToken_injective heq] at hopen
      exact hgone hopen
    exact List.mem_filter.2 ⟨hwaits, by simpa using hne⟩
  | destroy => exact h.quiet rfl rfl rfl rfl

end Flight

theorem closed_flight : Closed A fun s => Known s ∧ Flight s := by
  refine closed_known.along (fun store => ?_) (fun s t _ _ hm _ h => h.moved hm)
    fun s input t hs hturn hk h => h.turn hs hk hturn
  have hnone : (FrontendState.start store).flying = [] := rfl
  exact ⟨by simp [hnone], by simp [hnone], by simp [hnone], by simp [hnone]⟩

/-- The questions of the connections that are open. -/
def FrontendState.openAsks (s : FrontendState V) : List Ask :=
  s.asks.filter fun ask => ask.connId ∈ s.transport.connections

/-- **The flood bound.** -/
theorem one_question (h : (frontend A).Reachable s) :
    (s.asks.map Ask.connId).Nodup ∧ s.openAsks.length ≤ s.transport.connections.size ∧
      s.transport.connections.size ≤ 32 := by
  have hflight := (closed_flight.reachable h).2
  have hnodup : (s.asks.map Ask.connId).Nodup :=
    hflight.nodup.sublist ((List.sublist_append_left _ _).map Ask.connId)
  refine ⟨hnodup, ?_, reachable_size (reachable_transport h)⟩
  have hopen : (s.openAsks.map Ask.connId).Nodup := hnodup.sublist (List.filter_sublist.map _)
  have hsub : s.openAsks.map Ask.connId ⊆ s.transport.connections.keys := by
    intro c hc
    obtain ⟨ask, hask, rfl⟩ := List.mem_map.1 hc
    rw [ExtTreeMap.mem_keys]
    simpa using (List.mem_filter.1 hask).2
  have hle := hopen.length_le_of_subset hsub
  rwa [List.length_map, ExtTreeMap.length_keys] at hle

/-- One after the other, clients ask for a trust change and leave. -/
def flood (n : ℕ) : List FrontendInput :=
  (List.range n).flatMap fun k =>
    [connects] ++ sendsRequest (k + 1) [2, 7] [] quietOutside ++ leaves (k + 1)

-- a connection takes its entry with it, and the question stands on
set_option maxRecDepth 100000 in
theorem one_question_flood :
    ∃ s, (frontend plainAgent).Reachable s ∧ s.asks.length = 33 ∧
      s.transport.connections.size = 0 :=
  ⟨_, ⟨_, flood 33, ⟨0, rfl⟩, rfl⟩, rfl, rfl⟩

/-- Two questions stand, and the first one's connection is gone. -/
theorem one_question_two :
    ∃ s, (frontend plainAgent).run (.start 0)
        (flood 1 ++ [connects] ++ sendsRequest 2 [2, 7] [] quietOutside) = some s ∧
      s.asks.map Ask.connId = [1, 2] ∧ (s.asks.map Ask.connId).Nodup ∧
      s.openAsks.length = 1 ∧ s.openAsks.length ≤ s.transport.connections.size := by
  have hone : ∀ s, (frontend plainAgent).run (.start 0)
      (flood 1 ++ [connects] ++ sendsRequest 2 [2, 7] [] quietOutside) = some s →
      (s.asks.map Ask.connId).Nodup ∧ s.openAsks.length ≤ s.transport.connections.size ∧
        s.transport.connections.size ≤ 32 :=
    fun s hrun => one_question ⟨_, _, ⟨0, rfl⟩, hrun⟩
  exact ⟨_, rfl, rfl, (hone _ rfl).1, rfl, (hone _ rfl).2.1⟩

end Frontend

end LibreDarwin
