import LibreDarwin.Frontend.Launched
import LibreDarwin.Frontend.Model.Authorizer

/-!
# Who is judged, and by what

The authorizer judges a client by the credentials of the client's own
connection: the table is looked up by the client's token, which no two
connections share, and a request is only handled while its connection is
in the table. So over any run each verdict in the log is the policy's
verdict on the peer whose request it was given for, and what a request
leads to is labelled by that peer.
-/

namespace LibreDarwin

namespace Frontend

open Wire Transport Script Std

variable {V Trust Creds : Type*} {A : Agent V Trust} {G : Gatekeeper Creds}
variable {o : Outside} {s t u : FrontendState V} {n : ℕ} {i : Inbound}

/-! ## What the policy admits -/

/-- The list that narrows an action. -/
def Policy.listFor (P : Policy) : AuthAction → List String
  | .configureTrust => P.trustTierSigningIds
  | _ => P.allowedSigningIds

/-- **On a list**: in the group that is required, with an identifier that
is listed, and signed by the team, where one is required. -/
structure Gatekeeper.Listed (G : Gatekeeper Creds) (creds : Creds) (list : List String) : Prop where
  group : ∃ group, G.policy.requiredAppGroup = some group ∧
    group ∈ (G.resolvePeerCodeSigning creds G.policy.teamId).appGroups
  team : G.policy.teamId.isSome →
    (G.resolvePeerCodeSigning creds G.policy.teamId).designatedRequirementValid = some true
  signingId : ∃ signingId ∈ list,
    (G.resolvePeerCodeSigning creds G.policy.teamId).signingId = some signingId

/-- **What is admitted**: anyone where the action's list is empty, and else
those on it. -/
def Gatekeeper.Admits (G : Gatekeeper Creds) (creds : Creds) (action : AuthAction) : Prop :=
  G.policy.listFor action = [] ∨ G.Listed creds (G.policy.listFor action)

namespace Gatekeeper

/-- The trust tier is no default action. -/
def Apart (G : Gatekeeper Creds) : Prop := G.ids.kActionConfigureTrust ∉ G.ids.defaults

instance : Decidable G.Apart := inferInstanceAs (Decidable (¬ _))

/-- **The lookup finds the client's own connection.** -/
theorem credentialsFor_callerToken {Req : Type*} {s : State Req} (hs : Orderly s) {c : ConnId}
    (hc : c ∈ s.connections) : G.credentialsFor s (callerToken c) = some (G.peer c) := by
  obtain ⟨conn, hconn⟩ := Option.isSome_iff_exists.1 (ExtTreeMap.mem_iff_isSome_getElem?.1 hc)
  have hfound : (s.connections.toList.find? fun e => e.2.caller = callerToken c).isSome := by
    rw [List.find?_isSome]
    refine ⟨(c, conn), ExtTreeMap.mem_toList_iff_getElem?_eq_some.2 hconn, ?_⟩
    exact decide_eq_true (hs.owner c conn hconn).2
  obtain ⟨⟨c', conn'⟩, hfind⟩ := Option.isSome_iff_exists.1 hfound
  have hcaller : conn'.caller = callerToken c := by simpa using List.find?_some hfind
  have hconn' := ExtTreeMap.mem_toList_iff_getElem?_eq_some.1 (List.mem_of_find?_eq_some hfind)
  obtain rfl : c = c' := callerToken_injective (hcaller.symm.trans (hs.owner c' conn' hconn').2)
  rw [credentialsFor, hfind]
  rfl

end Gatekeeper

/-! ## What a handler writes of its gates -/

/-- A deed that tells what the rest of the agent answered tells it as it
was answered. -/
def Deed.AsAnswered (o : Outside) (n : ℕ) (i : Inbound) : Deed → Prop
  | .authorized m action outcome => m = n ∧ outcome = o.authorize action i.caller
  | .allowed m ok => m = n ∧ ok = o.allow i.caller
  | _ => True

theorem writes_card {α : Type} {P : Deed → Prop} {handle : Handle} {bit : ℕ}
    {f : CardRouting → Script Deed SyncError α} (hf : ∀ routing, Writes P (f routing)) :
    Writes P (card s handle bit >>= f) := by
  refine Writes.silent_bind ?_ hf
  exact log_bind_eq_nil log_ofOption fun routing => log_bind_eq_nil log_refuseIf fun _ => rfl

section Handlers

variable {α : Type} {f : Unit → Script Deed SyncError α}

theorem writes_authorize {action : AuthAction} (hf : ∀ a, Writes (Deed.AsAnswered o n i) (f a)) :
    Writes (Deed.AsAnswered o n i) (authorize o n i action >>= f) := by
  refine Writes.bind (.bind (.tell ⟨rfl, rfl⟩) fun _ => ?_) hf
  cases refusal (o.authorize action i.caller) with
  | none => exact .pure
  | some code => exact .refuse

theorem writes_limit (hf : ∀ a, Writes (Deed.AsAnswered o n i) (f a)) :
    Writes (Deed.AsAnswered o n i) (limit o n i >>= f) :=
  .bind (.bind (.tell ⟨rfl, rfl⟩) fun _ => .of_silent log_refuseIf) hf

theorem writes_readDocument {cap index : ℕ} :
    Writes (Deed.AsAnswered o n i) (readDocument o n i cap index) :=
  .silent_bind log_ofOption fun _ => .bind (.tell trivial) fun _ => .of_silent rfl

theorem writes_change {x : Apply} : Writes (Deed.AsAnswered o n i) (handleChange A o n i x) := by
  refine .silent_bind log_ofOption fun tier => .silent_bind log_refuseIf fun _ => ?_
  split
  · exact writes_authorize fun _ => writes_limit fun _ => .pure
  · exact writes_authorize fun _ => .pure

/-- **Every handler writes its gates' answers down** as they were given. -/
theorem writes_handle : Writes (Deed.AsAnswered o n i) (handle A o s n i) := by
  have hread : ∀ {handle : Handle} {bit : ℕ} {spec : LaunchSpec},
      Writes (Deed.AsAnswered o n i) (handleRead o s i handle bit spec) :=
    writes_card fun _ => .pure
  unfold handle
  cases i.request.body with
  | hello msg =>
    dsimp only [handleHello]
    split <;> exact .pure
  | readIdentity handle => exact hread
  | getPhoto handle => exact hread
  | readCertificates handle => exact hread
  | readTokenInfo handle => exact hread
  | listCredentials handle => exact hread
  | sign msg =>
    refine writes_card fun routing => .silent_bind log_refuseIf fun _ => ?_
    refine writes_authorize fun _ => writes_limit fun _ => .bind writes_readDocument fun doc => ?_
    exact .silent_bind rfl fun resolved => .pure
  | signBatch msg =>
    refine writes_card fun routing => .silent_bind log_refuseIf fun _ => ?_
    refine writes_authorize fun _ => writes_limit fun _ => .silent_bind log_refuseIf fun _ => ?_
    refine .bind (.forEach (fun entry => .bind writes_readDocument fun _ => .pure) _) fun inputs => ?_
    exact .silent_bind rfl fun resolved => .pure
  | managePin msg =>
    refine writes_card fun routing => writes_authorize fun _ => writes_limit fun _ => ?_
    refine .silent_bind log_refuseIf fun _ => ?_
    dsimp only
    split
    · exact .refuse
    · exact .pure
  | activateSigningKey handle =>
    exact writes_card fun routing => writes_authorize fun _ => writes_limit fun _ => .pure
  | cancelOp op => exact .bind (.tell trivial) fun _ => .pure
  | getSignResult op =>
    refine .bind (.tell trivial) fun _ => .silent_bind log_ofOption fun record => ?_
    exact .silent_bind log_ofOption fun fd => .pure
  | setConfig msg => exact writes_change
  | resetConfig msg => exact writes_change
  | importCscaMasterList msg =>
    refine writes_authorize fun _ => writes_limit fun _ => ?_
    exact .silent_bind log_ofOption fun held => .pure
  | pkSignRaw reader cert mech data => exact .silent_bind log_ofOption fun _ => .pure
  | pkDecrypt reader cert mech data => exact .silent_bind log_ofOption fun _ => .pure
  | layoutVisual msg => exact .silent_bind log_refuseIf fun _ => .pure
  | getAppearanceFont => exact .silent_bind log_ofOption fun fd => .pure
  | _ => exact .pure

end Handlers

/-! ## Over a run -/

/-- **A dispatch under the authorizer** is told of the request's own
peer. -/
theorem judged_dispatch (hs : (frontend A).Reachable s) {input : FrontendInput}
    (h : Dispatches A s t (judged G A s input) o u i) :
    (∀ action, o.authorize action i.caller =
      G.authorize (action.name G.ids) (some (G.peer i.connId))) ∧
    o.requesterLabel i.caller = G.shownAs A.library.sanitizeLabel (G.peer i.connId) := by
  obtain ⟨event, heq, t', ht', rfl⟩ := h.loop
  have hown : o = G.outside A.library.sanitizeLabel t' o := by
    cases input with
    | loop event' o' =>
      simp only [judged] at heq
      split at heq
      · rename_i hnone
        obtain ⟨rfl, rfl⟩ := FrontendInput.loop.inj heq
        rw [hnone] at ht'
        cases ht'
      · rename_i t'' hsome
        obtain ⟨rfl, rfl⟩ := FrontendInput.loop.inj heq
        obtain rfl := Option.some.inj (hsome.symm.trans ht')
        rfl
    | _ => cases heq
  have horderly : Orderly t' := reachable_orderly ((reachable_transport hs).step ht')
  have hcreds : G.credentialsFor t' i.caller = some (G.peer i.connId) := by
    rw [h.arrives.caller]
    exact Gatekeeper.credentialsFor_callerToken horderly h.arrives.sends.2
  rw [hown]
  refine ⟨fun action => ?_, ?_⟩
  · exact congrArg (G.authorize _) hcreds
  · change G.requesterLabel A.library.sanitizeLabel t' i.caller = _
    rw [Gatekeeper.requesterLabel, hcreds]

/-- The peer a request came from. -/
def FrontendState.From (s : FrontendState V) (G : Gatekeeper Creds) (n : ℕ) (i : Inbound)
    (creds : Creds) : Prop :=
  s.requests[n]? = some i ∧ creds = G.peer i.connId

theorem FrontendState.From.mono {creds : Creds} (h : s.From G n i creds)
    (hrequests : s.requests <+: t.requests) : t.From G n i creds := by
  obtain ⟨later, hlater⟩ := hrequests
  refine ⟨?_, h.2⟩
  rw [← hlater]
  exact List.getElem?_append_left (List.getElem?_eq_some_iff.1 h.1).1 ▸ h.1

/-- **What is known of the peers**: each verdict is the policy's on the
peer of its request, and what a request led to is labelled by that peer. -/
structure Judged (A : Agent V Trust) (G : Gatekeeper Creds) (s : FrontendState V) : Prop where
  verdicts : ∀ n action outcome, .authorized n action outcome ∈ s.log → ∃ i creds,
    s.From G n i creds ∧ outcome = G.authorize (action.name G.ids) (some creds)
  launched : ∀ n op target spec, .launched n op target spec ∈ s.log → ∃ i creds,
    s.From G n i creds ∧ target.caller = i.caller ∧
      target.requester = G.shownAs A.library.sanitizeLabel creds
  asks : ∀ ask ∈ s.asks, ∃ i creds, s.From G ask.n i creds ∧ ask.caller = i.caller ∧
    ask.action.requester = G.shownAs A.library.sanitizeLabel creds
  calls : ∀ call ∈ s.brokerCalls, ∃ i creds, s.From G call.n i creds ∧ call.caller = i.caller ∧
    call.requester = G.shownAs A.library.sanitizeLabel creds

namespace Judged

theorem start (store : V) : Judged A G (.start store) := by
  refine ⟨?_, ?_, ?_, ?_⟩
  · rintro n action outcome ⟨⟩
  · rintro n op target spec ⟨⟩
  · rintro ask ⟨⟩
  · rintro call ⟨⟩

theorem step (hs : (frontend A).Reachable s) {input : FrontendInput} (h : Judged A G s)
    (hstep : s.step A (judged G A s input) = some t) : Judged A G t := by
  have hhears := hears_step hs hstep
  obtain ⟨hdeeds, hcalls, hasks⟩ := served_step hs hstep
  have hmine : ∀ {o u i}, Dispatches A s t (judged G A s input) o u i →
      t.From G u.requests.length i (G.peer i.connId) := fun hdispatch => ⟨hdispatch.request, rfl⟩
  refine ⟨fun n action outcome hmem => ?_, fun n op target spec hmem => ?_, fun ask hask => ?_,
    fun call hcall => ?_⟩
  · rcases hdeeds _ hmem rfl with hold | ⟨o, u, i, hdispatch, hserved⟩
    · obtain ⟨i, creds, hfrom, heq⟩ := h.verdicts n action outcome hold
      exact ⟨i, creds, hfrom.mono hhears.requests, heq⟩
    · cases hserved with
      | script hscript =>
        obtain ⟨rfl, rfl⟩ := writes_handle (Deed.authorized n action outcome) hscript
        exact ⟨i, _, hmine hdispatch, (judged_dispatch hs hdispatch).1 action⟩
  · rcases hdeeds _ hmem rfl with hold | ⟨o, u, i, hdispatch, hserved⟩
    · obtain ⟨i, creds, hfrom, heq⟩ := h.launched n op target spec hold
      exact ⟨i, creds, hfrom.mono hhears.requests, heq⟩
    · cases hserved with
      | script hscript => exact absurd hscript not_launched_handle
      | launched hok hlaunched =>
        obtain ⟨handle, routing, hlaunch⟩ := launchedAs_of_ok hok
        refine ⟨i, _, hmine hdispatch, ?_⟩
        rw [hlaunch.target]
        exact ⟨rfl, (judged_dispatch hs hdispatch).2⟩
  · rcases hasks ask hask with hold | ⟨o, u, i, hdispatch, hserved⟩
    · obtain ⟨i, creds, hfrom, heq⟩ := h.asks ask hold
      exact ⟨i, creds, hfrom.mono hhears.requests, heq⟩
    · refine ⟨i, _, hserved.n ▸ hmine hdispatch, hserved.caller, ?_⟩
      rw [hserved.requester]
      exact (judged_dispatch hs hdispatch).2
  · rcases hcalls call hcall with hold | ⟨o, u, i, hdispatch, hserved⟩
    · obtain ⟨i, creds, hfrom, heq⟩ := h.calls call hold
      exact ⟨i, creds, hfrom.mono hhears.requests, heq⟩
    · refine ⟨i, _, hserved.n ▸ hmine hdispatch, hserved.caller, ?_⟩
      rw [hserved.requester]
      exact (judged_dispatch hs hdispatch).2

/-- **Over a run.** -/
theorem reachable (h : (peers G A).Reachable s) : Judged A G s := by
  suffices hboth : (frontend A).Reachable s ∧ Judged A G s from hboth.2
  refine h.invariant (I := fun s => (frontend A).Reachable s ∧ Judged A G s) ?_ ?_
  · rintro s ⟨store, rfl⟩
    exact ⟨.of_init ⟨store, rfl⟩, start store⟩
  · rintro s input t ⟨hs, hjudged⟩ hst
    exact ⟨Machine.Reachable.step (M := frontend A) hs (i := judged G A s input) hst,
      hjudged.step hs hst⟩

end Judged

end Frontend

end LibreDarwin
